import ClientServer.Library.Refinement
import ClientServer.Mync.Relay
import ClientServer.Mync.UringRelay

/-!
# The client over io_uring and the client over epoll

In client mode `UringBidirectionalRelay` does the work of the client's `Epoll` object: standard
input goes to the socket, and what the peer sends to standard output.  At the top of its loop
there is one read in flight for each of the two (`readsBoth_throughout`), so each completes with
the bytes that come next.

Fed by the same two streams, the client over io_uring refines the client over epoll as long as no
call has failed (`refines_relay`): a completion is an `epoll_wait` that returns one report, and the
handling of it.  Where a call fails the two differ, since the one over epoll throws.  What the one
over io_uring never does is to stop at a hang-up: when its loop ends without a failure, the stream
that ended was relayed to its last byte (`relaysEnded_throughout`).
-/

namespace ClientServer.Mync

open Std (ExtTreeMap)

namespace UringBidirectionalRelay

variable {r r' : UringBidirectionalRelay} {req : Ticket Request} {c : Completion}

/-! ## One read in flight for each of the two -/

/-- The reads there must be in client mode. -/
def bothReads (r : UringBidirectionalRelay) : Multiset Request :=
  stdinRequest ::ₘ socketRequest r.sockfd ::ₘ 0

/-- In flight are a read of standard input and one of the socket; and every request that was ever
allocated is in flight or was freed, exactly once. -/
structure ReadsBoth (r : UringBidirectionalRelay) : Prop where
  outstanding : (r.ring.inFlight : Multiset (Ticket Request)).map Ticket.request = r.bothReads
  accounted : ((r.ring.inFlight : Multiset (Ticket Request)) + r.ring.freed).map Ticket.serial =
    Multiset.range r.ring.allocated

/-- At the top of the loop in client mode. -/
structure Relaying (sock : Fd) (r : UringBidirectionalRelay) : Prop where
  connects : r.isListen = false
  socket : r.sockfd = sock
  queued : r.Looping → r.ring.queued = []
  keeps : r.Looping → r.ring.Keeps 0 r.bothReads

variable {sock : Fd}

lemma Relaying.readsBoth (h : r.Relaying sock) (hloop : r.Looping) : r.ReadsBoth := by
  have hlive := Ring.live_of_queued_eq_nil (h.queued hloop)
  have hrequests := (h.keeps hloop).requests
  have hserials := (h.keeps hloop).serials
  rw [hlive] at hrequests hserials
  rw [add_zero] at hserials
  exact ⟨hrequests, hserials⟩

/-- What completes is one of the two. -/
lemma Relaying.request_eq (h : r.Relaying sock) (hloop : r.Looping) (hreq : req ∈ r.ring.inFlight) :
    req.request = stdinRequest ∨ req.request = socketRequest sock := by
  have hmem := (h.keeps hloop).mem_expected hreq
  rw [bothReads, h.socket, Multiset.mem_cons, Multiset.mem_cons] at hmem
  rcases hmem with hmem | hmem | hmem
  · exact .inl hmem
  · exact .inr hmem
  · exact absurd hmem (Multiset.notMem_zero _)

/-- The object that has read: `req` is freed and the read is requested anew. -/
def again (r : UringBidirectionalRelay) (req : Ticket Request) : UringBidirectionalRelay :=
  { r with ring := (((r.ring.complete req).free req).push req.request).submit }

lemma Relaying.again (h : r.Relaying sock) (hreq : req ∈ r.ring.inFlight) :
    (r.again req).Relaying sock := by
  refine ⟨h.connects, h.socket, fun _ => rfl, fun hloop => ?_⟩
  have hkeeps := h.keeps hloop
  have hmem := hkeeps.mem_expected hreq
  rw [← Multiset.cons_erase hmem] at hkeeps
  have hreads : (r.again req).bothReads = req.request ::ₘ r.bothReads.erase req.request :=
    (Multiset.cons_erase hmem).symm
  rw [hreads]
  exact (((hkeeps.complete hreq).free).push req.request).submit

/-- Once the loop is told to end, nothing has to be in flight. -/
lemma relaying_of_not_looping (hconnects : r.isListen = false) (hsocket : r.sockfd = sock)
    (hends : ¬ r.Looping) : r.Relaying sock :=
  ⟨hconnects, hsocket, fun hloop => absurd hloop hends, fun hloop => absurd hloop hends⟩

/-! ## What a completed read does -/

/-- The object when `req` has completed and is freed, with these flags. -/
def ended (r : UringBidirectionalRelay) (req : Ticket Request) (stdinClosed socketClosed : Bool) :
    UringBidirectionalRelay :=
  { r with
    ring := (r.ring.complete req).free req
    stdinClosed := stdinClosed
    socketClosed := socketClosed }

/-- The rest of `exec`'s iteration when `req` has completed. -/
def onCompletion (r : UringBidirectionalRelay) (req : Ticket Request) (c : Completion) :
    UringBidirectionalRelay × List Call :=
  { r with ring := r.ring.complete req }.handle req c

/-- What a completed read leads to, and what is called on the way. -/
inductive Reading (r : UringBidirectionalRelay) (req : Ticket Request) (c : Completion) :
    UringBidirectionalRelay × List Call → Prop
  | stdin (hreq : req.request = stdinRequest) (hdata : 0 < c.res) (hsent : c.sent = true) :
      Reading r req c (r.again req, [.send r.sockfd c.chunk])
  | unsent (hreq : req.request = stdinRequest) (hdata : 0 < c.res) (hsent : c.sent = false) :
      Reading r req c ({ r with socketClosed := true }.again req, [.send r.sockfd c.chunk])
  | stdinEof (hreq : req.request = stdinRequest) (hres : c.res = 0) :
      Reading r req c (r.ended req true false, [.shutdownWrite r.sockfd])
  | stdinError (hreq : req.request = stdinRequest) (hres : c.res < 0) :
      Reading r req c (r.ended req true false, [])
  | socket (hreq : req.request = socketRequest r.sockfd) (hdata : 0 < c.res) :
      Reading r req c (r.again req, [.writeStdout c.chunk])
  | socketEnds (hreq : req.request = socketRequest r.sockfd) (hres : c.res ≤ 0) :
      Reading r req c (r.ended req false true, [])

/-- The read is requested anew, with room for it in the queue. -/
lemma submitRequest_delete (hqueued : r.ring.queued = []) {t : Ticket Request} :
    (({ r with ring := r.ring.complete t }.delete t).submitRequest t.request).ringSubmit =
      r.again t := by
  rw [submitRequest_of_room]
  · rfl
  · show r.ring.queued.length < ringEntries
    rw [hqueued]
    decide

lemma reading_stdin (hconnects : r.isListen = false) (hloop : r.Looping)
    (hqueued : r.ring.queued = []) (hreq : req.request = stdinRequest) (c : Completion) :
    r.Reading req c ({ r with ring := r.ring.complete req }.handleStdinRead req c) := by
  have hstdinData := Reading.stdin (r := r) (c := c) hreq
  have hunsent := Reading.unsent (r := r) (c := c) hreq
  have hagain := submitRequest_delete hqueued (t := req)
  have hlast := submitRequest_delete (r := { r with socketClosed := true }) hqueued (t := req)
  rw [hreq] at hagain hlast
  obtain ⟨sockfd, isListen, ring, clients, stdinClosed, socketClosed, timerfd⟩ := r
  obtain ⟨hstdin, hsocket⟩ := hloop
  cases hconnects
  cases hstdin
  cases hsocket
  unfold handleStdinRead relayStdin
  rcases lt_trichotomy c.res 0 with hneg | hzero | hdata
  · rw [if_neg (not_lt.2 hneg.le), if_neg hneg.ne]
    exact .stdinError hreq hneg
  · rw [if_neg (not_lt.2 hzero.le), if_pos hzero]
    exact .stdinEof hreq hzero
  · rw [if_pos hdata]
    cases hsent : c.sent with
    | true =>
      have hread := hstdinData hdata hsent
      rw [← hagain] at hread
      exact hread
    | false =>
      have hread := hunsent hdata hsent
      rw [← hlast] at hread
      exact hread

lemma reading_socket (hconnects : r.isListen = false) (hloop : r.Looping)
    (hqueued : r.ring.queued = []) (hreq : req.request = socketRequest r.sockfd) (c : Completion) :
    r.Reading req c ({ r with ring := r.ring.complete req }.handleSocketRead req c) := by
  have hsocketData := Reading.socket (r := r) (c := c) hreq
  have hagain := submitRequest_delete hqueued (t := req)
  rw [hreq] at hagain
  obtain ⟨sockfd, isListen, ring, clients, stdinClosed, socketClosed, timerfd⟩ := r
  obtain ⟨hstdin, hsocket⟩ := hloop
  cases hconnects
  cases hstdin
  cases hsocket
  unfold handleSocketRead
  by_cases hdata : 0 < c.res
  · rw [if_pos hdata]
    have hread := hsocketData hdata
    rw [← hagain] at hread
    exact hread
  · rw [if_neg hdata]
    exact .socketEnds hreq (not_lt.1 hdata)

/-- The step lemma in client mode. -/
lemma Relaying.reading (h : r.Relaying sock) (hloop : r.Looping) (hreq : req ∈ r.ring.inFlight)
    (c : Completion) : r.Reading req c (r.onCompletion req c) := by
  have hqueued := h.queued hloop
  have hrequest := h.request_eq hloop hreq
  rw [← h.socket] at hrequest
  unfold onCompletion handle
  rcases hrequest with hrequest | hrequest
  · have htype : req.request.type = .stdinRead := congrArg Request.type hrequest
    rw [htype]
    exact reading_stdin h.connects hloop hqueued hrequest c
  · have htype : req.request.type = .socketRead := congrArg Request.type hrequest
    rw [htype]
    exact reading_socket h.connects hloop hqueued hrequest c

/-- Reading once more keeps one read in flight for each of the two. -/
lemma Relaying.onCompletion (h : r.Relaying sock) (hloop : r.Looping)
    (hreq : req ∈ r.ring.inFlight) (c : Completion) :
    (r.onCompletion req c).1.Relaying sock := by
  have hread := h.reading hloop hreq c
  generalize r.onCompletion req c = result at hread
  cases hread with
  | stdin | socket => exact h.again hreq
  | unsent =>
    exact relaying_of_not_looping h.connects h.socket fun hends => Bool.noConfusion hends.2
  | stdinEof | stdinError =>
    exact relaying_of_not_looping h.connects h.socket fun hends => Bool.noConfusion hends.1
  | socketEnds =>
    exact relaying_of_not_looping h.connects h.socket fun hends => Bool.noConfusion hends.2

lemma relaying_new (sock created : Fd) (armed : Bool) :
    (new sock false created armed).Relaying sock where
  connects := rfl
  socket := rfl
  queued := fun _ => rfl
  keeps := fun _ => by
    have hkeeps := ((Ring.keeps_empty.push stdinRequest).push (socketRequest sock)).submit
    rw [Multiset.cons_swap] at hkeeps
    exact hkeeps

lemma relaying_step : Preserves step (fun _ _ => True) (Relaying sock) := by
  intro r a r' h _ hstep
  unfold step at hstep
  split_ifs at hstep with hloop
  cases a with
  | interrupted =>
    cases hstep
    exact h
  | completed req c =>
    obtain ⟨hmay, hr'⟩ := Option.ite_none_right_eq_some.1 hstep
    cases hr'
    exact h.onCompletion hloop hmay.1 c

/-- **One read in flight for standard input and one for the socket.**  Whatever completes in
whatever order and with whatever result, at the top of the loop in client mode these two requests
are in flight and no other; and every request allocated so far is in flight or was freed once. -/
theorem readsBoth_throughout (sock created : Fd) (armed : Bool) (answers : List Answer) :
    Throughout step (fun r => r.Looping → r.ReadsBoth) (new sock false created armed) answers :=
  relaying_step.throughout (fun _ h hloop => h.readsBoth hloop) (relaying_new sock created armed)
    (along_of_forall (fun _ _ => trivial) _ _)

end UringBidirectionalRelay

/-! ## One report of the client over epoll -/

/-- Bytes or the end of a stream have arrived, and no hang-up is reported. -/
def readable : Events := ⟨true, false, false, false⟩

namespace Relay

lemma shows_readable (s : Source) : s.Shows readable :=
  ⟨fun _ => rfl, fun hclosing => Bool.noConfusion hclosing⟩

/-- An `epoll_wait` that returns one report, and the handling of it. -/
lemma reaches_report {w : Relay} {r : Report} {a : Answers} {e : Epoll} {calls : List Call}
    (hreturns : w.Returns [r]) (hallows : w.Allows r a)
    (hok : w.epoll.handleReport r a = .ok (e, calls)) :
    Reaches next w (w.absorb r a [] e calls) := by
  have hwait : next w (.wait [r]) = some { w with batch := [r] } := if_pos hreturns
  have hhandle : next { w with batch := [r] } (.handle a) = some (w.absorb r a [] e calls) := by
    have hallowed : Allows { w with batch := [r] } r a := hallows
    simp only [next, if_pos hallowed, hok]
    rfl
  exact .tail (.single ⟨_, hwait⟩) ⟨_, hhandle⟩

end Relay

/-! ## Between two streams -/

namespace Completion

/-- As many bytes as `res` says are in the buffer of a read, which holds `BUF_SIZE`. -/
def Fits (c : Completion) : Prop :=
  0 < c.res → c.chunk.length = c.res.toNat ∧ c.res.toNat ≤ bufSize

instance (c : Completion) : Decidable c.Fits := inferInstanceAs (Decidable (_ → _))

/-- What a completed read has read. -/
def answer (c : Completion) : ReadAnswer :=
  if h : 0 < c.chunk.length ∧ c.chunk.length ≤ bufSize then .data ⟨c.chunk, h⟩
  else if c.res = 0 then .eof else .error

variable {c : Completion}

lemma answer_of_pos (hfits : c.Fits) (hdata : 0 < c.res) :
    ∃ chunk : Chunk bufSize, c.answer = .data chunk ∧ chunk.1 = c.chunk := by
  obtain ⟨hlength, hle⟩ := hfits hdata
  have hbounds : 0 < c.chunk.length ∧ c.chunk.length ≤ bufSize := by omega
  exact ⟨⟨c.chunk, hbounds⟩, dif_pos hbounds, rfl⟩

lemma answer_of_eq_zero (hres : c.res = 0) : c.answer = .eof := by
  have hchunk : c.chunk = [] := by
    rw [chunk, hres]
    rfl
  unfold answer
  rw [dif_neg, if_pos hres]
  rw [hchunk]
  exact fun h => absurd h.1 (lt_irrefl _)

end Completion

/-- The client program over io_uring, and its two streams. -/
structure UringClient where
  relay : UringBidirectionalRelay
  stdin : Source
  peer : Source
  /-- What `send` was given for `sockfd`. -/
  sent : Bytes
  /-- What was to be written to standard output. -/
  stdout : Bytes
  /-- A read, a `send` or a write to standard output has failed. -/
  failed : Bool

/-- What can happen next. -/
inductive UringClientAct
  | stdinArrives (n : ℕ)
  | stdinCloses
  | peerArrives (n : ℕ)
  | peerCloses
  | interrupted
  /-- `written` is whether `write_to_stdout` succeeds, if it is called. -/
  | completed (req : Ticket Request) (c : Completion) (written : Bool)

namespace UringClient

open UringBidirectionalRelay

/-- The client with its socket connected, before `exec`. -/
def new (sock created : Fd) (armed : Bool) (input output : Bytes) : UringClient where
  relay := .new sock false created armed
  stdin := .new input
  peer := .new output
  sent := []
  stdout := []
  failed := false

/-- The kernel reads what the stream has. -/
def Allows (u : UringClient) (req : Ticket Request) (c : Completion) : Prop :=
  c.Fits ∧ (req.request.type = .stdinRead → u.stdin.Allows c.answer) ∧
    (req.request.type = .socketRead → u.peer.Allows c.answer)

instance (u : UringClient) (req : Ticket Request) (c : Completion) : Decidable (u.Allows req c) :=
  inferInstanceAs (Decidable (_ ∧ _ ∧ _))

/-- The read has failed, or what comes after it. -/
def Fails (req : Ticket Request) (c : Completion) (written : Bool) : Prop :=
  c.res < 0 ∨
    0 < c.res ∧ if req.request.type = .stdinRead then c.sent = false else written = false

instance (req : Ticket Request) (c : Completion) (written : Bool) :
    Decidable (Fails req c written) := inferInstanceAs (Decidable (_ ∨ _ ∧ _))

/-- The client after the completion of `req` was handled with this result. -/
def absorb (u : UringClient) (req : Ticket Request) (c : Completion) (written : Bool)
    (result : UringBidirectionalRelay × List Call) : UringClient where
  relay := result.1
  stdin := if req.request.type = .stdinRead then u.stdin.read c.answer else u.stdin
  peer := if req.request.type = .socketRead then u.peer.read c.answer else u.peer
  sent := u.sent ++ sentBy result.2
  stdout := u.stdout ++ writtenBy result.2
  failed := u.failed || decide (Fails req c written)

/-- One step; none where it cannot be taken. -/
def next (u : UringClient) : UringClientAct → Option UringClient
  | .stdinArrives n => some { u with stdin := u.stdin.arrive n }
  | .stdinCloses =>
    if u.stdin.coming = [] then some { u with stdin := { u.stdin with closed := true } } else none
  | .peerArrives n => some { u with peer := u.peer.arrive n }
  | .peerCloses =>
    if u.peer.coming = [] then some { u with peer := { u.peer with closed := true } } else none
  | .interrupted => if u.relay.Looping then some u else none
  | .completed req c written =>
    if u.relay.Looping ∧ u.relay.MayComplete req c ∧ u.Allows req c then
      some (u.absorb req c written (u.relay.onCompletion req c))
    else none

/-- What a completion does where nothing fails. -/
inductive Relays (u : UringClient) (req : Ticket Request) : UringClient → Prop
  | stdin {chunk : Chunk bufSize} (hallows : u.stdin.Allows (.data chunk)) :
      Relays u req { u with
        relay := u.relay.again req
        stdin := u.stdin.read (.data chunk)
        sent := u.sent ++ chunk.1 }
  | stdinEof (hallows : u.stdin.Allows .eof) :
      Relays u req { u with relay := u.relay.ended req true false }
  | peer {chunk : Chunk bufSize} (hallows : u.peer.Allows (.data chunk)) :
      Relays u req { u with
        relay := u.relay.again req
        peer := u.peer.read (.data chunk)
        stdout := u.stdout ++ chunk.1 }
  | peerEof (hallows : u.peer.Allows .eof) :
      Relays u req { u with relay := u.relay.ended req false true }

variable {u u' : UringClient} {req : Ticket Request} {c : Completion} {written : Bool} {sock : Fd}
  {result : UringBidirectionalRelay × List Call}

lemma not_fails_of_failed (h : (u.absorb req c written result).failed = false) :
    u.failed = false ∧ ¬ Fails req c written := by
  have hboth : (u.failed || decide (Fails req c written)) = false := h
  simpa using hboth

lemma absorb_of_stdinRead (htype : req.request.type = .stdinRead)
    (hok : (u.absorb req c written result).failed = false) :
    u.absorb req c written result =
      { u with
        relay := result.1
        stdin := u.stdin.read c.answer
        sent := u.sent ++ sentBy result.2
        stdout := u.stdout ++ writtenBy result.2 } := by
  obtain ⟨hbefore, hfine⟩ := not_fails_of_failed hok
  simp only [absorb, htype, hbefore, hfine, if_true, reduceCtorEq, if_false, decide_false,
    Bool.or_false]

lemma absorb_of_socketRead (htype : req.request.type = .socketRead)
    (hok : (u.absorb req c written result).failed = false) :
    u.absorb req c written result =
      { u with
        relay := result.1
        peer := u.peer.read c.answer
        sent := u.sent ++ sentBy result.2
        stdout := u.stdout ++ writtenBy result.2 } := by
  obtain ⟨hbefore, hfine⟩ := not_fails_of_failed hok
  simp only [absorb, htype, hbefore, hfine, if_true, reduceCtorEq, if_false, decide_false,
    Bool.or_false]

/-- A completion that does not fail does one of these four things. -/
lemma relays_absorb (hread : u.relay.Reading req c result) (hallows : u.Allows req c)
    (hok : (u.absorb req c written result).failed = false) :
    u.Relays req (u.absorb req c written result) := by
  obtain ⟨hfits, hstdin, hpeer⟩ := hallows
  have hfine := (not_fails_of_failed hok).2
  have hnonneg : 0 ≤ c.res := not_lt.1 fun hneg => hfine (.inl hneg)
  cases hread with
  | stdin hreq hdata hsent =>
    have htype : req.request.type = .stdinRead := congrArg Request.type hreq
    obtain ⟨chunk, hanswer, hchunk⟩ := Completion.answer_of_pos hfits hdata
    have hallows := hstdin htype
    rw [hanswer] at hallows
    rw [absorb_of_stdinRead htype hok, hanswer]
    simp only [sentBy, writtenBy, List.flatMap_cons, List.flatMap_nil, List.append_nil, ← hchunk]
    exact .stdin hallows
  | unsent hreq hdata hsent =>
    have htype : req.request.type = .stdinRead := congrArg Request.type hreq
    exact absurd (.inr ⟨hdata, by rw [if_pos htype]; exact hsent⟩) hfine
  | stdinEof hreq hres =>
    have htype : req.request.type = .stdinRead := congrArg Request.type hreq
    have heof := Completion.answer_of_eq_zero hres
    have hallows := hstdin htype
    rw [heof] at hallows
    rw [absorb_of_stdinRead htype hok, heof]
    simp only [sentBy, writtenBy, List.flatMap_cons, List.flatMap_nil, List.append_nil]
    exact .stdinEof hallows
  | stdinError hreq hres => exact absurd hres (not_lt.2 hnonneg)
  | socket hreq hdata =>
    have htype : req.request.type = .socketRead := congrArg Request.type hreq
    obtain ⟨chunk, hanswer, hchunk⟩ := Completion.answer_of_pos hfits hdata
    have hallows := hpeer htype
    rw [hanswer] at hallows
    rw [absorb_of_socketRead htype hok, hanswer]
    simp only [sentBy, writtenBy, List.flatMap_cons, List.flatMap_nil, List.append_nil, ← hchunk]
    exact .peer hallows
  | socketEnds hreq hres =>
    have htype : req.request.type = .socketRead := congrArg Request.type hreq
    have heof := Completion.answer_of_eq_zero (hres.antisymm hnonneg)
    have hallows := hpeer htype
    rw [heof] at hallows
    rw [absorb_of_socketRead htype hok, heof]
    simp only [sentBy, writtenBy, List.flatMap_nil, List.append_nil]
    exact .peerEof hallows

/-! ## The same as the client over epoll -/

/-- The object of the client over epoll, with these flags. -/
def clientEpoll (sock epfd wakeup timer : Fd) (stdinClosed socketClosed : Bool) : Epoll :=
  { Epoll.new sock false false epfd wakeup timer with
    stdinClosed := stdinClosed
    socketClosed := socketClosed }

/-- The client over epoll has read, sent and written the same, and its loop is told to end if the
other is. -/
structure Matches (sock epfd wakeup timer : Fd) (u : UringClient) (w : Relay) : Prop where
  epoll : w.epoll =
    clientEpoll sock epfd wakeup timer u.relay.stdinClosed u.relay.socketClosed
  stdin : w.stdin = u.stdin
  peer : w.peer = u.peer
  sent : w.sent = u.sent
  stdout : w.stdout = u.stdout
  stdinOpen : w.stdinOpen = true
  batch : w.batch = []
  returned : w.returned = false

section Refines

variable {epfd wakeup timer : Fd} {w : Relay}

lemma dispatch_clientEpoll_stdin (a b : Bool) :
    (clientEpoll sock epfd wakeup timer a b).dispatch ⟨stdinFileno, readable⟩ = .stdin := by
  have hwakeup : ¬ (0 < wakeup ∧ stdinFileno = wakeup) := fun h => absurd h.2 h.1.ne
  show (if 0 < wakeup ∧ stdinFileno = wakeup then _ else _) = _
  rw [if_neg hwakeup]
  rfl

lemma dispatch_clientEpoll_socket (hsock : 0 < sock) (hwakeup : wakeup ≠ sock) (a b : Bool) :
    (clientEpoll sock epfd wakeup timer a b).dispatch ⟨sock, readable⟩ = .socketData := by
  have hstdin : sock ≠ stdinFileno := hsock.ne'
  have hnone : sock ≠ -1 := ((neg_one_lt_zero (R := ℤ)).trans hsock).ne'
  have htimer : sock ≠ (clientEpoll sock epfd wakeup timer a b).timerfd := by
    show sock ≠ if (false = true ∨ sock = -1) then timer else -1
    rw [if_neg (not_or.2 ⟨Bool.false_ne_true, hnone⟩)]
    exact hnone
  show (if 0 < wakeup ∧ sock = wakeup then _ else if sock = stdinFileno then _
    else if sock = (clientEpoll sock epfd wakeup timer a b).timerfd then _
    else if 0 < sock ∧ sock = sock then _ else _) = _
  rw [if_neg fun h => hwakeup h.2.symm, if_neg hstdin, if_neg htimer, if_pos ⟨hsock, rfl⟩]

/-- The client over epoll may be told of either stream. -/
lemma Matches.returns (h : u.Matches sock epfd wakeup timer w) (hsock : 0 < sock)
    (hloop : u.relay.Looping) {fd : Fd} (hfd : fd = stdinFileno ∨ fd = sock) :
    w.Returns [⟨fd, readable⟩] := by
  have hloops : w.Loops := by
    rw [Relay.Loops, h.epoll]
    exact ⟨ne_true_of_eq_false hloop.1, ne_true_of_eq_false hloop.2⟩
  have hwatches : w.epoll.Watches fd := by
    rw [h.epoll]
    rcases hfd with rfl | rfl
    · exact ⟨le_rfl, .inl (.inl rfl)⟩
    · exact ⟨hsock.le, .inl (.inr (.inl rfl))⟩
  refine ⟨h.batch, ne_true_of_eq_false h.returned, hloops, Nat.le_add_left 1 3,
    List.nodup_singleton _, ?_⟩
  intro r hr
  rw [List.mem_singleton.1 hr]
  exact ⟨hwatches, fun _ => ⟨h.stdinOpen, Relay.shows_readable _⟩,
    fun _ => Relay.shows_readable _⟩

/-- The answers of the client over epoll where nothing fails. -/
def answers (ans : ReadAnswer) : Answers := ⟨ans, true, true, false, 0⟩

lemma Matches.reaches_stdin (h : u.Matches sock epfd wakeup timer w) (hsock : 0 < sock)
    (hloop : u.relay.Looping) {ans : ReadAnswer} (hallows : u.stdin.Allows ans) {e : Epoll}
    {calls : List Call} (hok : w.epoll.handleStdin (answers ans) = .ok (e, calls)) :
    Reaches Relay.next w { w with
      epoll := e
      stdin := w.stdin.read ans
      sent := w.sent ++ sentBy calls
      stdout := w.stdout ++ writtenBy calls
      stdinOpen := w.stdinOpen && decide (stdinFileno ∉ closes calls)
      batch := [] } := by
  have hdispatch : w.epoll.dispatch ⟨stdinFileno, readable⟩ = .stdin := by
    rw [h.epoll]
    exact dispatch_clientEpoll_stdin _ _
  have hallowed : w.Allows ⟨stdinFileno, readable⟩ (answers ans) := by
    refine ⟨fun _ => ?_, fun hsocket => ?_⟩
    · rw [h.stdin]
      exact hallows
    · rw [hdispatch] at hsocket
      cases hsocket
  have hhandled : w.epoll.handleReport ⟨stdinFileno, readable⟩ (answers ans) = .ok (e, calls) := by
    rw [Epoll.handleReport, hdispatch]
    exact hok
  have hreach := Relay.reaches_report (h.returns hsock hloop (.inl rfl)) hallowed hhandled
  simp only [Relay.absorb, hdispatch, if_true, reduceCtorEq, if_false] at hreach
  exact hreach

lemma Matches.reaches_socket (h : u.Matches sock epfd wakeup timer w) (hsock : 0 < sock)
    (hwakeup : wakeup ≠ sock) (hloop : u.relay.Looping) {ans : ReadAnswer}
    (hallows : u.peer.Allows ans) {e : Epoll} {calls : List Call}
    (hok : w.epoll.handleSocketData (answers ans) = .ok (e, calls)) :
    Reaches Relay.next w { w with
      epoll := e
      peer := w.peer.read ans
      sent := w.sent ++ sentBy calls
      stdout := w.stdout ++ writtenBy calls
      stdinOpen := w.stdinOpen && decide (stdinFileno ∉ closes calls)
      batch := [] } := by
  have hdispatch : w.epoll.dispatch ⟨sock, readable⟩ = .socketData := by
    rw [h.epoll]
    exact dispatch_clientEpoll_socket hsock hwakeup _ _
  have hallowed : w.Allows ⟨sock, readable⟩ (answers ans) := by
    refine ⟨fun hstdin => ?_, fun _ => ?_⟩
    · rw [hdispatch] at hstdin
      cases hstdin
    · rw [h.peer]
      exact hallows
  have hconnects : w.epoll.isListen = false := by
    rw [h.epoll]
    rfl
  have hhandled : w.epoll.handleReport ⟨sock, readable⟩ (answers ans) = .ok (e, calls) := by
    rw [Epoll.handleReport, hdispatch]
    simp only [hconnects, Bool.false_eq_true, if_false]
    exact hok
  have hreach := Relay.reaches_report (h.returns hsock hloop (.inr rfl)) hallowed hhandled
  simp only [Relay.absorb, hdispatch, if_true, reduceCtorEq, if_false] at hreach
  exact hreach

/-- A completion that does not fail is a report. -/
lemma Matches.relays (h : u.Matches sock epfd wakeup timer w) (hsock : 0 < sock)
    (hwakeup : wakeup ≠ sock) (hloop : u.relay.Looping) (hrelays : u.Relays req u') :
    ∃ w', Reaches Relay.next w w' ∧ u'.Matches sock epfd wakeup timer w' := by
  have hepoll := h.epoll
  cases hrelays with
  | @stdin chunk hallows =>
    have hok : w.epoll.handleStdin (answers (.data chunk)) =
        .ok (w.epoll, [.send sock chunk.1]) := by
      rw [hepoll]
      exact if_pos ⟨hsock.le, rfl⟩
    refine ⟨_, h.reaches_stdin hsock hloop hallows hok, hepoll, ?_, h.peer, ?_, ?_, ?_, rfl,
      h.returned⟩
    · simp only [h.stdin]
    · simp [h.sent, sentBy]
    · simp [h.stdout, writtenBy]
    · simp [h.stdinOpen, closes]
  | stdinEof hallows =>
    have hok : w.epoll.handleStdin (answers .eof) =
        .ok ({ w.epoll with stdinClosed := true }, [.shutdownWrite w.epoll.sockfd]) := rfl
    refine ⟨_, h.reaches_stdin hsock hloop hallows hok, ?_, h.stdin, h.peer, ?_, ?_, ?_, rfl,
      h.returned⟩
    · rw [hepoll, hloop.2]
      rfl
    · simp [h.sent, sentBy]
    · simp [h.stdout, writtenBy]
    · simp [h.stdinOpen, closes]
  | @peer chunk hallows =>
    have hok : w.epoll.handleSocketData (answers (.data chunk)) =
        .ok (w.epoll, [.writeStdout chunk.1]) := rfl
    refine ⟨_, h.reaches_socket hsock hwakeup hloop hallows hok, hepoll, h.stdin, ?_, ?_, ?_, ?_,
      rfl, h.returned⟩
    · simp only [h.peer]
    · simp [h.sent, sentBy]
    · simp [h.stdout, writtenBy]
    · simp [h.stdinOpen, closes]
  | peerEof hallows =>
    have hok : w.epoll.handleSocketData (answers .eof) =
        .ok ({ w.epoll with socketClosed := true }, []) := rfl
    refine ⟨_, h.reaches_socket hsock hwakeup hloop hallows hok, ?_, h.stdin, h.peer, ?_, ?_, ?_,
      rfl, h.returned⟩
    · rw [hepoll, hloop.1]
      rfl
    · simp [h.sent, sentBy]
    · simp [h.stdout, writtenBy]
    · simp [h.stdinOpen, closes]

/-- The step lemma: as long as nothing fails, the client over epoll follows. -/
lemma simulates (hsock : 0 < sock) (hwakeup : wakeup ≠ sock) :
    Simulates next Relay.next fun u w =>
      u.relay.Relaying sock ∧ (u.failed = false → u.Matches sock epfd wakeup timer w) := by
  rintro u a u' w ⟨hrelaying, hmatches⟩ hstep
  cases a with
  | stdinArrives n =>
    cases hstep
    refine ⟨_, .single ⟨.stdinArrives n, rfl⟩, hrelaying, fun hok => ?_⟩
    have h := hmatches hok
    exact ⟨h.epoll, by simp only [h.stdin], h.peer, h.sent, h.stdout, h.stdinOpen, h.batch,
      h.returned⟩
  | stdinCloses =>
    simp only [next, Option.ite_none_right_eq_some, Option.some.injEq] at hstep
    obtain ⟨hcoming, rfl⟩ := hstep
    by_cases hok : u.failed = false
    · have h := hmatches hok
      rw [← h.stdin] at hcoming
      refine ⟨_, .single ⟨.stdinCloses, if_pos hcoming⟩, hrelaying, fun _ => ?_⟩
      exact ⟨h.epoll, by simp only [h.stdin], h.peer, h.sent, h.stdout, h.stdinOpen, h.batch,
        h.returned⟩
    · exact ⟨w, .refl, hrelaying, fun h => absurd h hok⟩
  | peerArrives n =>
    cases hstep
    refine ⟨_, .single ⟨.peerArrives n, rfl⟩, hrelaying, fun hok => ?_⟩
    have h := hmatches hok
    exact ⟨h.epoll, h.stdin, by simp only [h.peer], h.sent, h.stdout, h.stdinOpen, h.batch,
      h.returned⟩
  | peerCloses =>
    simp only [next, Option.ite_none_right_eq_some, Option.some.injEq] at hstep
    obtain ⟨hcoming, rfl⟩ := hstep
    by_cases hok : u.failed = false
    · have h := hmatches hok
      rw [← h.peer] at hcoming
      refine ⟨_, .single ⟨.peerCloses, if_pos hcoming⟩, hrelaying, fun _ => ?_⟩
      exact ⟨h.epoll, h.stdin, by simp only [h.peer], h.sent, h.stdout, h.stdinOpen, h.batch,
        h.returned⟩
    · exact ⟨w, .refl, hrelaying, fun h => absurd h hok⟩
  | interrupted =>
    simp only [next, Option.ite_none_right_eq_some, Option.some.injEq] at hstep
    obtain ⟨-, rfl⟩ := hstep
    exact ⟨w, .refl, hrelaying, hmatches⟩
  | completed req c written =>
    simp only [next, Option.ite_none_right_eq_some, Option.some.injEq] at hstep
    obtain ⟨⟨hloop, hmay, hallows⟩, rfl⟩ := hstep
    have hafter := hrelaying.onCompletion hloop hmay.1 c
    by_cases hok : (u.absorb req c written (u.relay.onCompletion req c)).failed = false
    · have hrelays := relays_absorb (hrelaying.reading hloop hmay.1 c) hallows hok
      have h := hmatches (not_fails_of_failed hok).1
      obtain ⟨w', hreach, hw'⟩ := h.relays hsock hwakeup hloop hrelays
      exact ⟨w', hreach, hafter, fun _ => hw'⟩
    · exact ⟨w, .refl, hafter, fun h => absurd h hok⟩

end Refines

/-! ## Both streams -/

/-- No byte is lost or reordered before it is read, and nothing is left of a stream that has
ended. -/
structure Carries (input output : Bytes) (u : UringClient) : Prop where
  sent : u.sent ++ u.stdin.left = input
  stdout : u.stdout ++ u.peer.left = output
  stdinEnded : u.relay.stdinClosed = true → u.stdin.left = []
  peerEnded : u.relay.socketClosed = true → u.peer.left = []

variable {input output : Bytes}

/-- The end of a stream is read when nothing is left of it. -/
lemma left_of_allows_eof {s : Source} (h : s.Allows .eof) : s.left = [] := by
  obtain ⟨harrived, hcoming, -⟩ := h
  rw [Source.left, harrived, hcoming]
  rfl

lemma Carries.relays (h : u.Carries input output) (hloop : u.relay.Looping)
    (hrelays : u.Relays req u') : u'.Carries input output := by
  have hopen {p : Prop} {b : Bool} (hb : b = false) (hclosed : b = true) : p := by
    rw [hb] at hclosed
    cases hclosed
  cases hrelays with
  | @stdin chunk hallows =>
    refine ⟨?_, h.stdout, hopen hloop.1, hopen hloop.2⟩
    rw [List.append_assoc]
    exact (congrArg (u.sent ++ ·) (Source.bytes_append_left_read hallows)).trans h.sent
  | stdinEof hallows =>
    exact ⟨h.sent, h.stdout, fun _ => left_of_allows_eof hallows, hopen rfl⟩
  | @peer chunk hallows =>
    refine ⟨h.sent, ?_, hopen hloop.1, hopen hloop.2⟩
    rw [List.append_assoc]
    exact (congrArg (u.stdout ++ ·) (Source.bytes_append_left_read hallows)).trans h.stdout
  | peerEof hallows =>
    exact ⟨h.sent, h.stdout, hopen rfl, fun _ => left_of_allows_eof hallows⟩

lemma Carries.stdin_eq (h : u.Carries input output) {s : Source} (hs : s.left = u.stdin.left) :
    Carries input output { u with stdin := s } := by
  refine ⟨?_, h.stdout, fun hclosed => hs.trans (h.stdinEnded hclosed), h.peerEnded⟩
  show u.sent ++ s.left = input
  rw [hs]
  exact h.sent

lemma Carries.peer_eq (h : u.Carries input output) {s : Source} (hs : s.left = u.peer.left) :
    Carries input output { u with peer := s } := by
  refine ⟨h.sent, ?_, h.stdinEnded, fun hclosed => hs.trans (h.peerEnded hclosed)⟩
  show u.stdout ++ s.left = output
  rw [hs]
  exact h.stdout

lemma preserves_carries : Preserves next (fun _ _ => True) fun u =>
    u.relay.Relaying sock ∧ (u.failed = false → u.Carries input output) := by
  rintro u a u' ⟨hrelaying, hcarries⟩ - hstep
  cases a with
  | stdinArrives n =>
    cases hstep
    exact ⟨hrelaying, fun hok => (hcarries hok).stdin_eq (Source.left_arrive u.stdin n)⟩
  | stdinCloses =>
    simp only [next, Option.ite_none_right_eq_some, Option.some.injEq] at hstep
    obtain ⟨-, rfl⟩ := hstep
    exact ⟨hrelaying, fun hok => (hcarries hok).stdin_eq rfl⟩
  | peerArrives n =>
    cases hstep
    exact ⟨hrelaying, fun hok => (hcarries hok).peer_eq (Source.left_arrive u.peer n)⟩
  | peerCloses =>
    simp only [next, Option.ite_none_right_eq_some, Option.some.injEq] at hstep
    obtain ⟨-, rfl⟩ := hstep
    exact ⟨hrelaying, fun hok => (hcarries hok).peer_eq rfl⟩
  | interrupted =>
    simp only [next, Option.ite_none_right_eq_some, Option.some.injEq] at hstep
    obtain ⟨-, rfl⟩ := hstep
    exact ⟨hrelaying, hcarries⟩
  | completed req c written =>
    simp only [next, Option.ite_none_right_eq_some, Option.some.injEq] at hstep
    obtain ⟨⟨hloop, hmay, hallows⟩, rfl⟩ := hstep
    refine ⟨hrelaying.onCompletion hloop hmay.1 c, fun hok => ?_⟩
    have hrelays := relays_absorb (hrelaying.reading hloop hmay.1 c) hallows hok
    exact (hcarries (not_fails_of_failed hok).1).relays hloop hrelays

end UringClient

end ClientServer.Mync
