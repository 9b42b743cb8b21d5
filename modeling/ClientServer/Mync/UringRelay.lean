import ClientServer.Library.Ring
import ClientServer.Library.Runs
import ClientServer.Mync.Epoll

/-!
# `mync/io_uring.h`: the class `UringBidirectionalRelay`

The relay over io_uring.  It has one request in the kernel for everything it waits for: standard
input, and in listen mode the next connection, the timer and each client, else its socket.  A
handler frees the request that completed and allocates the one that takes its place.

A step is one iteration of the loop in `exec`: any request in flight completes with any result.
`io_uring_submit` hands over the whole submission queue, and each request completes once.  A
`std::runtime_error` of `setup_uring` or `exec` ends the run.

Left out: the texts printed on `std::cout` and `std::cerr`, the rates in `Stats`, and the memory
a request points to, which is allocated and freed with it.
-/

namespace ClientServer.Mync

open Std (ExtTreeMap)

/-! ## Requests -/

/-- `OpType`. -/
inductive OpType
  | stdinRead
  | socketRead
  | accept
  | timerRead
  | clientRead
  deriving DecidableEq, Repr

/-- The fields of `Request` that do not point to memory. -/
structure Request where
  type : OpType
  fd : Fd
  bufferSize : ℕ
  deriving DecidableEq, Repr

/-- What a completed request brings. -/
structure Completion where
  /-- `cqe->res`. -/
  res : ℤ
  /-- What the buffer of the request holds. -/
  buffer : Bytes
  /-- The text for the address in `client_addr`. -/
  ip : String
  /-- Whether `send` to `sockfd` takes the whole chunk. -/
  sent : Bool
  /-- The clock. -/
  now : ℕ

/-- The bytes a read brought. -/
def Completion.chunk (c : Completion) : Bytes := c.buffer.take c.res.toNat

/-- `sizeof(uint64_t)`. -/
def expirationsSize : ℕ := 8

/-- The size of the ring in `io_uring_queue_init(64, &ring, 0)`. -/
def ringEntries : ℕ := 64

def stdinRequest : Request := ⟨.stdinRead, stdinFileno, bufSize⟩

def socketRequest (sockfd : Fd) : Request := ⟨.socketRead, sockfd, bufSize⟩

def acceptRequest (sockfd : Fd) : Request := ⟨.accept, sockfd, 0⟩

def timerRequest (timerfd : Fd) : Request := ⟨.timerRead, timerfd, expirationsSize⟩

def clientRequest (fd : Fd) : Request := ⟨.clientRead, fd, bufSize⟩

/-! ## The object -/

/-- The fields of class `UringBidirectionalRelay`; the ring comes with the requests that were
allocated for it. -/
structure UringBidirectionalRelay where
  sockfd : Fd
  isListen : Bool
  ring : Ring Request
  clients : ExtTreeMap Fd Stats
  stdinClosed : Bool
  socketClosed : Bool
  timerfd : Fd

namespace UringBidirectionalRelay

/-- `io_uring_submit(&ring)`. -/
def ringSubmit (r : UringBidirectionalRelay) : UringBidirectionalRelay :=
  { r with ring := r.ring.submit }

/-- `delete req`, and what it points to. -/
def delete (r : UringBidirectionalRelay) (req : Ticket Request) : UringBidirectionalRelay :=
  { r with ring := r.ring.free req }

/-- What the `submit_*` functions share: if the queue is full it is submitted first, and if it
is full even then there will be no request. -/
def submitRequest (r : UringBidirectionalRelay) (q : Request) : UringBidirectionalRelay :=
  match r.ring.prepare ringEntries q with
  | some ring => { r with ring := ring }
  | none =>
    match r.ringSubmit.ring.prepare ringEntries q with
    | some ring => { r with ring := ring }
    | none => r.ringSubmit

/-- `submit_stdin_read`. -/
def submitStdinRead (r : UringBidirectionalRelay) : UringBidirectionalRelay :=
  if r.stdinClosed then r else r.submitRequest stdinRequest

/-- `submit_socket_read`. -/
def submitSocketRead (r : UringBidirectionalRelay) : UringBidirectionalRelay :=
  if r.socketClosed then r else r.submitRequest (socketRequest r.sockfd)

/-- `submit_accept`. -/
def submitAccept (r : UringBidirectionalRelay) : UringBidirectionalRelay :=
  if r.socketClosed then r else r.submitRequest (acceptRequest r.sockfd)

/-- `submit_client_read`. -/
def submitClientRead (r : UringBidirectionalRelay) (fd : Fd) : UringBidirectionalRelay :=
  if fd ∈ r.clients then r.submitRequest (clientRequest fd) else r

/-- `create_timer`, given what `timerfd_create` answers and whether `timerfd_settime` succeeds. -/
def createTimer (created : Fd) (armed : Bool) : Fd :=
  if created = -1 then -1 else if armed then created else -1

/-- `setup_timer`. -/
def setupTimer (r : UringBidirectionalRelay) (created : Fd) (armed : Bool) :
    UringBidirectionalRelay :=
  let r := { r with timerfd := createTimer created armed }
  if r.timerfd < 0 then r else r.submitRequest (timerRequest r.timerfd)

/-- `setup_uring` after `io_uring_queue_init`. -/
def setupUring (r : UringBidirectionalRelay) (created : Fd) (armed : Bool) :
    UringBidirectionalRelay :=
  let r := r.submitStdinRead
  let r := if r.isListen then r.submitAccept.setupTimer created armed else r.submitSocketRead
  r.ringSubmit

/-- The members before the constructor's body runs. -/
def initial (sock : Fd) (listen : Bool) : UringBidirectionalRelay where
  sockfd := sock
  isListen := listen
  ring := .empty
  clients := ∅
  stdinClosed := false
  socketClosed := false
  timerfd := -1

/-- The constructor. -/
def new (sock : Fd) (listen : Bool) (created : Fd) (armed : Bool) : UringBidirectionalRelay :=
  (initial sock listen).setupUring created armed

/-! ## The handlers -/

/-- `handle_stdin_read` up to `delete[] req->buffer`. -/
def relayStdin (r : UringBidirectionalRelay) (c : Completion) :
    UringBidirectionalRelay × List Call :=
  if 0 < c.res then
    -- a failed send to a client is only reported on `std::cerr`
    if r.isListen then (r, r.clients.keys.map (.send · c.chunk))
    else (if c.sent then r else { r with socketClosed := true }, [.send r.sockfd c.chunk])
  else if c.res = 0 then
    ({ r with stdinClosed := true },
      if r.isListen then r.clients.keys.map .shutdownWrite else [.shutdownWrite r.sockfd])
  else ({ r with stdinClosed := true }, [])

/-- `handle_stdin_read`. -/
def handleStdinRead (r : UringBidirectionalRelay) (req : Ticket Request) (c : Completion) :
    UringBidirectionalRelay × List Call :=
  let (r, calls) := r.relayStdin c
  let r := r.delete req
  (if r.stdinClosed then r else r.submitStdinRead.ringSubmit, calls)

/-- `handle_socket_read`: a failed write to standard output is only reported. -/
def handleSocketRead (r : UringBidirectionalRelay) (req : Ticket Request) (c : Completion) :
    UringBidirectionalRelay × List Call :=
  let (r, calls) :=
    if 0 < c.res then (r, [.writeStdout c.chunk]) else ({ r with socketClosed := true }, [])
  let r := r.delete req
  (if r.socketClosed then r else r.submitSocketRead.ringSubmit, calls)

/-- `handle_accept` up to `delete req->client_addr`. -/
def adoptClient (r : UringBidirectionalRelay) (c : Completion) : UringBidirectionalRelay :=
  if 0 ≤ c.res then
    { r with clients := r.clients.insertIfNew c.res (Stats.accepted c.ip c.now) }.submitClientRead
      c.res
  else r

/-- `handle_accept`. -/
def handleAccept (r : UringBidirectionalRelay) (req : Ticket Request) (c : Completion) :
    UringBidirectionalRelay :=
  let r := (r.adoptClient c).delete req
  if r.socketClosed then r else r.submitAccept.ringSubmit

/-- `handle_timer_read` up to `delete[] req->buffer`. -/
def tickClients (r : UringBidirectionalRelay) (c : Completion) :
    UringBidirectionalRelay × List Call :=
  if c.res = expirationsSize then
    ({ r with clients := r.clients.map fun _ st => st.tick c.now },
      (r.clients.toList.filter fun client => (client.2.updateBps c.now).checkFourGigabytes.1).map
        fun client => .sendStats client.1)
  else (r, [])

/-- `handle_timer_read` after `delete req`: a full queue is not submitted to get an entry, as it
is in `setup_timer`. -/
def resubmitTimer (r : UringBidirectionalRelay) : UringBidirectionalRelay :=
  if 0 ≤ r.timerfd then
    match r.ring.prepare ringEntries (timerRequest r.timerfd) with
    | some ring => { r with ring := ring }.ringSubmit
    | none => r
  else r

/-- `handle_timer_read`. -/
def handleTimerRead (r : UringBidirectionalRelay) (req : Ticket Request) (c : Completion) :
    UringBidirectionalRelay × List Call :=
  let (r, calls) := r.tickClients c
  ((r.delete req).resubmitTimer, calls)

/-- `remove_client`. -/
def removeClient (r : UringBidirectionalRelay) (fd : Fd) : UringBidirectionalRelay × List Call :=
  if fd ∈ r.clients then ({ r with clients := r.clients.erase fd }, [.close fd]) else (r, [])

/-- `handle_client_read`: a failed write to standard output is only reported. -/
def handleClientRead (r : UringBidirectionalRelay) (req : Ticket Request) (c : Completion) :
    UringBidirectionalRelay × List Call :=
  let fd := req.request.fd
  if fd ∈ r.clients then
    if 0 < c.res then
      let r := { r with clients := r.clients.modify fd (·.addBytes c.res.toNat) }
      (((r.delete req).submitClientRead fd).ringSubmit, [.writeStdout c.chunk])
    else (r.delete req).removeClient fd
  else (r.delete req, [])

/-! ## The loop -/

/-- The `switch` in `exec`. -/
def handle (r : UringBidirectionalRelay) (req : Ticket Request) (c : Completion) :
    UringBidirectionalRelay × List Call :=
  match req.request.type with
  | .stdinRead => r.handleStdinRead req c
  | .socketRead => r.handleSocketRead req c
  | .accept => (r.handleAccept req c, [])
  | .timerRead => r.handleTimerRead req c
  | .clientRead => r.handleClientRead req c

/-- The condition of the `while` loop in `exec`. -/
def Looping (r : UringBidirectionalRelay) : Prop :=
  r.stdinClosed = false ∧ r.socketClosed = false

instance (r : UringBidirectionalRelay) : Decidable r.Looping := inferInstanceAs (Decidable (_ ∧ _))

/-- What the kernel may report: a request in flight has completed, with any result.  The
descriptors of the clients are open, so no connection is accepted on one of them. -/
def MayComplete (r : UringBidirectionalRelay) (req : Ticket Request) (c : Completion) : Prop :=
  req ∈ r.ring.inFlight ∧ (req.request.type = .accept → 0 ≤ c.res → c.res ∉ r.clients)

instance (r : UringBidirectionalRelay) (req : Ticket Request) (c : Completion) :
    Decidable (r.MayComplete req c) := inferInstanceAs (Decidable (_ ∧ _))

/-- What `io_uring_wait_cqe` answers when it does not fail. -/
inductive Answer
  /-- A negative result with `EINTR`. -/
  | interrupted
  | completed (req : Ticket Request) (c : Completion)

/-- One iteration of the loop in `exec`. -/
def step (r : UringBidirectionalRelay) (a : Answer) : Option UringBidirectionalRelay :=
  if r.Looping then
    match a with
    | .interrupted => some r
    | .completed req c =>
      if r.MayComplete req c then
        some ({ r with ring := r.ring.complete req }.handle req c).1
      else none
  else none

/-! ## One request for everything it waits for -/

/-- The requests there must be: for standard input, the next connection, the timer if there is
one, and each client. -/
def expected (r : UringBidirectionalRelay) : Multiset Request :=
  stdinRequest ::ₘ acceptRequest r.sockfd ::ₘ
    ((if 0 ≤ r.timerfd then {timerRequest r.timerfd} else 0) +
      (r.clients.keys : Multiset Fd).map clientRequest)

/-- The requests in flight are the expected ones, once each; and every request that was ever
allocated is in flight or was freed, exactly once. -/
structure OneInFlight (r : UringBidirectionalRelay) : Prop where
  outstanding : (r.ring.inFlight : Multiset (Ticket Request)).map Ticket.request = r.expected
  accounted : ((r.ring.inFlight : Multiset (Ticket Request)) + r.ring.freed).map Ticket.serial =
    Multiset.range r.ring.allocated

lemma mem_expected {r : UringBidirectionalRelay} {q : Request} (hq : q ∈ r.expected) :
    q = stdinRequest ∨ q = acceptRequest r.sockfd ∨
      (0 ≤ r.timerfd ∧ q = timerRequest r.timerfd) ∨ ∃ fd ∈ r.clients, q = clientRequest fd := by
  unfold expected at hq
  rw [Multiset.mem_cons, Multiset.mem_cons, Multiset.mem_add, Multiset.mem_map] at hq
  rcases hq with hq | hq | hq | ⟨fd, hfd, hq⟩
  · exact Or.inl hq
  · exact Or.inr (Or.inl hq)
  · split_ifs at hq with htimer
    · exact Or.inr (Or.inr (Or.inl ⟨htimer, Multiset.mem_singleton.1 hq⟩))
    · exact absurd hq (Multiset.notMem_zero q)
  · exact Or.inr (Or.inr (Or.inr ⟨fd, ExtTreeMap.mem_keys.1 hfd, hq.symm⟩))

/-- What is expected depends on the clients only through their descriptors. -/
lemma expected_congr (r : UringBidirectionalRelay) {m : ExtTreeMap Fd Stats}
    (h : ∀ fd, fd ∈ m ↔ fd ∈ r.clients) : { r with clients := m }.expected = r.expected := by
  have hkeys : (m.keys : Multiset Fd) = r.clients.keys := by
    apply Multiset.coe_eq_coe.2
    apply (List.perm_ext_iff_of_nodup m.nodup_keys r.clients.nodup_keys).2
    intro fd
    rw [ExtTreeMap.mem_keys, ExtTreeMap.mem_keys]
    exact h fd
  unfold expected
  rw [hkeys]

/-- A client more is a request more. -/
lemma expected_add_client (r : UringBidirectionalRelay) {m : ExtTreeMap Fd Stats} {fd : Fd}
    (hfd : fd ∉ r.clients) (h : ∀ x, x ∈ m ↔ x = fd ∨ x ∈ r.clients) :
    { r with clients := m }.expected = clientRequest fd ::ₘ r.expected := by
  have hkeys : (m.keys : Multiset Fd) = fd ::ₘ r.clients.keys := by
    have hnodup : (fd :: r.clients.keys).Nodup :=
      List.nodup_cons.2 ⟨fun hmem => hfd (ExtTreeMap.mem_keys.1 hmem), r.clients.nodup_keys⟩
    rw [Multiset.cons_coe]
    apply Multiset.coe_eq_coe.2
    apply (List.perm_ext_iff_of_nodup m.nodup_keys hnodup).2
    intro x
    rw [List.mem_cons, ExtTreeMap.mem_keys, ExtTreeMap.mem_keys]
    exact h x
  unfold expected
  rw [hkeys, Multiset.map_cons, Multiset.add_cons, Multiset.cons_swap (acceptRequest _),
    Multiset.cons_swap stdinRequest]

/-! ## The invariant of the loop -/

/-- At the top of the loop in listen mode. -/
structure Serving (r : UringBidirectionalRelay) : Prop where
  listens : r.isListen = true
  socket : r.socketClosed = false
  queued : r.stdinClosed = false → r.ring.queued = []
  keeps : r.stdinClosed = false → r.ring.Keeps 0 r.expected

/-- Within a handler: of the expected requests only `q` is missing. -/
structure Handling (r : UringBidirectionalRelay) (held : Multiset (Ticket Request))
    (q : Request) : Prop where
  listens : r.isListen = true
  socket : r.socketClosed = false
  room : r.ring.queued.length < ringEntries
  missing : ∃ e, r.ring.Keeps held e ∧ r.expected = q ::ₘ e

variable {r : UringBidirectionalRelay} {held : Multiset (Ticket Request)} {q : Request}
  {req : Ticket Request} {c : Completion}

/-- There is room for one request more in a queue that is not full. -/
lemma submitRequest_of_room (q : Request) (h : r.ring.queued.length < ringEntries) :
    r.submitRequest q = { r with ring := r.ring.push q } := by
  unfold submitRequest
  rw [Ring.prepare_of_room h]

lemma Serving.oneInFlight (h : r.Serving) (hloop : r.Looping) : r.OneInFlight := by
  have hkeeps := h.keeps hloop.1
  have hlive := Ring.live_of_queued_eq_nil (h.queued hloop.1)
  have hrequests := hkeeps.requests
  have hserials := hkeeps.serials
  rw [hlive] at hrequests hserials
  rw [add_zero] at hserials
  exact ⟨hrequests, hserials⟩

/-- When a request completes, it is the one that is missing. -/
lemma Serving.handling (h : r.Serving) (hloop : r.Looping) (hreq : req ∈ r.ring.inFlight) :
    Handling { r with ring := r.ring.complete req } {req} req.request := by
  have hkeeps := h.keeps hloop.1
  have hmem := hkeeps.mem_expected hreq
  refine ⟨h.listens, h.socket, ?_, r.expected.erase req.request, ?_, ?_⟩
  · show r.ring.queued.length < ringEntries
    rw [h.queued hloop.1]
    decide
  · apply Ring.Keeps.complete _ hreq
    rw [Multiset.cons_erase hmem]
    exact hkeeps
  · exact (Multiset.cons_erase hmem).symm

namespace Handling

lemma delete (h : r.Handling {req} q) : (r.delete req).Handling 0 q := by
  obtain ⟨e, hkeeps, hexpected⟩ := h.missing
  exact ⟨h.listens, h.socket, h.room, e, hkeeps.free, hexpected⟩

/-- New counters for the same clients. -/
lemma setClients (h : r.Handling held q) {m : ExtTreeMap Fd Stats}
    (hm : ∀ fd, fd ∈ m ↔ fd ∈ r.clients) : Handling { r with clients := m } held q := by
  obtain ⟨e, hkeeps, hexpected⟩ := h.missing
  exact ⟨h.listens, h.socket, h.room, e, hkeeps, (r.expected_congr hm).trans hexpected⟩

/-- The request that is missing is allocated anew and submitted. -/
lemma resubmit (h : r.Handling 0 q) : (r.submitRequest q).ringSubmit.Serving := by
  obtain ⟨e, hkeeps, hexpected⟩ := h.missing
  rw [submitRequest_of_room q h.room]
  refine ⟨h.listens, h.socket, fun _ => rfl, fun _ => ?_⟩
  show (r.ring.push q).submit.Keeps 0 r.expected
  rw [hexpected]
  exact (hkeeps.push q).submit

end Handling

/-! ## The handlers in listen mode -/

/-- Reading standard input changes no more than its flag. -/
lemma relayStdin_of_listen (hlisten : r.isListen = true) (c : Completion) :
    ∃ closed calls, r.relayStdin c = ({ r with stdinClosed := closed }, calls) := by
  unfold relayStdin
  by_cases hdata : 0 < c.res
  · rw [if_pos hdata, if_pos hlisten]
    exact ⟨_, _, rfl⟩
  · rw [if_neg hdata]
    by_cases hzero : c.res = 0
    · rw [if_pos hzero]
      exact ⟨_, _, rfl⟩
    · rw [if_neg hzero]
      exact ⟨_, _, rfl⟩

/-- Counting does not change whose the counters are. -/
lemma tickClients_eq (r : UringBidirectionalRelay) (c : Completion) :
    ∃ m calls, r.tickClients c = ({ r with clients := m }, calls) ∧
      ∀ fd, fd ∈ m ↔ fd ∈ r.clients := by
  unfold tickClients
  by_cases hexpired : c.res = expirationsSize
  · rw [if_pos hexpired]
    exact ⟨_, _, rfl, fun fd => ExtTreeMap.mem_map⟩
  · rw [if_neg hexpired]
    exact ⟨_, _, rfl, fun fd => Iff.rfl⟩

lemma sockfd_submitRequest (r : UringBidirectionalRelay) (q : Request) :
    (r.submitRequest q).sockfd = r.sockfd := by
  unfold submitRequest
  split
  · rfl
  · split <;> rfl

lemma sockfd_adoptClient (r : UringBidirectionalRelay) (c : Completion) :
    (r.adoptClient c).sockfd = r.sockfd := by
  unfold adoptClient submitClientRead
  split_ifs
  · exact sockfd_submitRequest _ _
  · rfl
  · rfl

namespace Handling

lemma handleStdinRead (h : r.Handling {req} stdinRequest) :
    (r.handleStdinRead req c).1.Serving := by
  obtain ⟨closed, calls, hrelay⟩ := relayStdin_of_listen h.listens c
  unfold UringBidirectionalRelay.handleStdinRead
  rw [hrelay]
  cases closed with
  | true =>
    have hclosed {p : Prop} (hopen : true = false) : p := by cases hopen
    exact ⟨h.listens, h.socket, hclosed, hclosed⟩
  | false =>
    have hopen : Handling { r with stdinClosed := false } {req} stdinRequest :=
      ⟨h.listens, h.socket, h.room, h.missing⟩
    exact hopen.delete.resubmit

/-- A client more is expected to be read from, and is. -/
lemma submitClientRead (h : r.Handling held q) (hqueued : r.ring.queued = [])
    {m : ExtTreeMap Fd Stats} {fd : Fd} (hfd : fd ∉ r.clients)
    (hm : ∀ x, x ∈ m ↔ x = fd ∨ x ∈ r.clients) :
    ({ r with clients := m }.submitClientRead fd).Handling held q := by
  obtain ⟨e, hkeeps, hexpected⟩ := h.missing
  have hroom : ({ r with clients := m } : UringBidirectionalRelay).ring.queued.length <
    ringEntries := h.room
  unfold UringBidirectionalRelay.submitClientRead
  rw [if_pos ((hm fd).2 (Or.inl rfl)), submitRequest_of_room _ hroom]
  refine ⟨h.listens, h.socket, ?_, clientRequest fd ::ₘ e, hkeeps.push _, ?_⟩
  · show (r.ring.queued ++ [_]).length < ringEntries
    rw [hqueued]
    exact (by decide : 1 < ringEntries)
  · rw [Multiset.cons_swap, ← hexpected]
    exact r.expected_add_client hfd hm

lemma adoptClient (h : r.Handling held q) (hqueued : r.ring.queued = [])
    (hfresh : 0 ≤ c.res → c.res ∉ r.clients) : (r.adoptClient c).Handling held q := by
  unfold UringBidirectionalRelay.adoptClient
  by_cases hres : 0 ≤ c.res
  · rw [if_pos hres]
    apply h.submitClientRead hqueued (hfresh hres)
    intro x
    rw [ExtTreeMap.mem_insertIfNew, Std.compare_eq_iff_eq]
    exact or_congr_left eq_comm
  · rw [if_neg hres]
    exact h

lemma submitAccept (h : r.Handling 0 (acceptRequest r.sockfd)) :
    r.submitAccept.ringSubmit.Serving := by
  unfold UringBidirectionalRelay.submitAccept
  rw [h.socket]
  exact h.resubmit

lemma handleAccept (h : r.Handling {req} (acceptRequest r.sockfd)) (hqueued : r.ring.queued = [])
    (hfresh : 0 ≤ c.res → c.res ∉ r.clients) : (r.handleAccept req c).Serving := by
  have hdeleted := (h.adoptClient hqueued hfresh).delete
  rw [← r.sockfd_adoptClient c] at hdeleted
  have hsocket := hdeleted.socket
  show Serving (if ((r.adoptClient c).delete req).socketClosed then _ else _)
  rw [if_neg (ne_true_of_eq_false hsocket)]
  exact hdeleted.submitAccept

lemma resubmitTimer (h : r.Handling 0 (timerRequest r.timerfd)) (htimer : 0 ≤ r.timerfd) :
    r.resubmitTimer.Serving := by
  have hserving := h.resubmit
  rw [submitRequest_of_room _ h.room] at hserving
  unfold UringBidirectionalRelay.resubmitTimer
  rw [if_pos htimer, Ring.prepare_of_room h.room]
  exact hserving

lemma handleTimerRead (h : r.Handling {req} (timerRequest r.timerfd)) (htimer : 0 ≤ r.timerfd) :
    (r.handleTimerRead req c).1.Serving := by
  obtain ⟨m, calls, htick, hm⟩ := r.tickClients_eq c
  unfold UringBidirectionalRelay.handleTimerRead
  rw [htick]
  exact (h.setClients hm).delete.resubmitTimer htimer

/-- A client that is removed is not expected to be read from any more. -/
lemma removeClient {fd : Fd} (h : r.Handling 0 (clientRequest fd)) (hfd : fd ∈ r.clients)
    (hqueued : r.ring.queued = []) : (r.removeClient fd).1.Serving := by
  obtain ⟨e, hkeeps, hexpected⟩ := h.missing
  have hadded : r.expected =
      clientRequest fd ::ₘ expected { r with clients := r.clients.erase fd } := by
    apply expected_add_client { r with clients := r.clients.erase fd }
    · show fd ∉ r.clients.erase fd
      rw [ExtTreeMap.mem_erase, ne_eq, Std.compare_eq_iff_eq]
      exact fun hmem => hmem.1 rfl
    · intro x
      show x ∈ r.clients ↔ x = fd ∨ x ∈ r.clients.erase fd
      rw [ExtTreeMap.mem_erase, ne_eq, Std.compare_eq_iff_eq]
      constructor
      · intro hx
        by_cases hxfd : x = fd
        · exact Or.inl hxfd
        · exact Or.inr ⟨fun heq => hxfd heq.symm, hx⟩
      · rintro (rfl | hx)
        · exact hfd
        · exact hx.2
  unfold UringBidirectionalRelay.removeClient
  rw [if_pos hfd]
  refine ⟨h.listens, h.socket, fun _ => hqueued, fun _ => ?_⟩
  rw [hadded] at hexpected
  rw [(Multiset.cons_inj_right _).1 hexpected]
  exact hkeeps

lemma handleClientRead {fd : Fd} (h : r.Handling {req} (clientRequest fd))
    (hfd : fd ∈ r.clients) (hreq : req.request = clientRequest fd)
    (hqueued : r.ring.queued = []) : (r.handleClientRead req c).1.Serving := by
  have hreqFd : req.request.fd = fd := congrArg Request.fd hreq
  have hsame (x : Fd) : x ∈ r.clients.modify fd (·.addBytes c.res.toNat) ↔ x ∈ r.clients :=
    ExtTreeMap.mem_modify
  unfold UringBidirectionalRelay.handleClientRead
  rw [hreqFd, if_pos hfd]
  by_cases hdata : 0 < c.res
  · rw [if_pos hdata]
    have hcounted := (h.setClients hsame).delete
    show (ringSubmit (UringBidirectionalRelay.submitClientRead _ fd)).Serving
    unfold UringBidirectionalRelay.submitClientRead
    rw [if_pos]
    · exact hcounted.resubmit
    · exact (hsame fd).2 hfd
  · rw [if_neg hdata]
    exact h.delete.removeClient hfd hqueued

end Handling

/-! ## Every run in listen mode -/

/-- Before the timer there are two requests in the queue. -/
lemma submitAccept_initial (sock : Fd) :
    (initial sock true).submitStdinRead.submitAccept =
      { initial sock true with
        ring := (Ring.empty.push stdinRequest).push (acceptRequest sock) } := rfl

/-- Without clients only the timer may come to the two. -/
lemma expected_initial (sock : Fd) (ring : Ring Request) (timer : Fd) :
    expected { initial sock true with ring := ring, timerfd := timer } =
      (if 0 ≤ timer then {timerRequest timer} else 0) +
        acceptRequest sock ::ₘ stdinRequest ::ₘ 0 := by
  have hkeys : ((∅ : ExtTreeMap Fd Stats).keys : Multiset Fd) = 0 := by
    apply Multiset.eq_zero_of_forall_notMem
    intro fd hfd
    exact ExtTreeMap.not_mem_empty (ExtTreeMap.mem_keys.1 hfd)
  show stdinRequest ::ₘ acceptRequest sock ::ₘ
    (_ + ((∅ : ExtTreeMap Fd Stats).keys : Multiset Fd).map clientRequest) = _
  rw [hkeys, Multiset.map_zero, add_zero, Multiset.cons_swap, Multiset.add_cons,
    Multiset.add_cons, add_zero]

lemma serving_new (sock created : Fd) (armed : Bool) : (new sock true created armed).Serving := by
  set ring := (Ring.empty.push stdinRequest).push (acceptRequest sock) with hring
  have hkeeps : ring.Keeps 0 (acceptRequest sock ::ₘ stdinRequest ::ₘ 0) :=
    (Ring.keeps_empty.push _).push _
  show (ringSubmit (setupTimer (initial sock true).submitStdinRead.submitAccept created
    armed)).Serving
  rw [submitAccept_initial, ← hring]
  unfold setupTimer
  by_cases htimer : createTimer created armed < 0
  · rw [if_pos htimer]
    refine ⟨rfl, rfl, fun _ => rfl, fun _ => ?_⟩
    show ring.submit.Keeps 0 (expected { initial sock true with
      ring := ring.submit, timerfd := createTimer created armed })
    rw [expected_initial, if_neg (not_le.2 htimer), zero_add]
    exact hkeeps.submit
  · rw [if_neg htimer]
    apply Handling.resubmit
    refine ⟨rfl, rfl, (by decide : 2 < ringEntries), _, hkeeps, ?_⟩
    show expected { initial sock true with
      ring := ring, timerfd := createTimer created armed } = _
    rw [expected_initial, if_pos (not_lt.1 htimer), Multiset.singleton_add]

/-- One iteration of the loop. -/
lemma serving_step : Preserves step (fun _ _ => True) Serving := by
  intro r a r' h _ hstep
  unfold step at hstep
  split_ifs at hstep with hloop
  cases a with
  | interrupted =>
    cases hstep
    exact h
  | completed req c =>
    obtain ⟨hmay, hr'⟩ := Option.ite_none_right_eq_some.1 hstep
    cases hr'
    have hhandling := h.handling hloop hmay.1
    have hqueued := h.queued hloop.1
    have hmem := (h.keeps hloop.1).mem_expected hmay.1
    unfold handle
    rcases mem_expected hmem with hreq | hreq | ⟨htimer, hreq⟩ | ⟨fd, hfd, hreq⟩
    · rw [hreq] at hhandling ⊢
      exact hhandling.handleStdinRead
    · have hfresh := hmay.2 (congrArg Request.type hreq)
      rw [hreq] at hhandling ⊢
      exact hhandling.handleAccept hqueued hfresh
    · rw [hreq] at hhandling ⊢
      exact hhandling.handleTimerRead htimer
    · rw [hreq] at hhandling
      have htype : req.request.type = .clientRead := congrArg Request.type hreq
      rw [htype]
      exact hhandling.handleClientRead hfd hreq hqueued

/-- **One request in flight for each source.**  Whatever completes in whatever order and with
whatever result, at the top of the loop there is one request in flight for standard input, one
for the next connection, one for the timer if it was created, one for each client, and no
other; and every request allocated so far is in flight or was freed once. -/
theorem oneInFlight_throughout (sock created : Fd) (armed : Bool) (answers : List Answer) :
    Throughout step (fun r => r.Looping → r.OneInFlight) (new sock true created armed) answers :=
  serving_step.throughout (fun _ h hloop => h.oneInFlight hloop) (serving_new sock created armed)
    (along_of_forall (fun _ _ => trivial) _ _)

end UringBidirectionalRelay

end ClientServer.Mync
