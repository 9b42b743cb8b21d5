import ClientServer.Mync.UringHandlers

/-!
# The server over io_uring and its descriptors

The class `UringBidirectionalRelay` in listen mode, from its constructor to its destructor, with
the kernel at its other side.  Requests complete on their own, in any order and with any result,
and `exec` gets to the completions one by one, as late as it likes: a connection can be open and
not yet a client, and bytes can be read and not yet written.  A descriptor that is closed may be
that of the next connection.

`opened` has the sockets, the timer and standard input.  Not counted are standard output, standard
error and the ring's own descriptor, which are open for the whole of the object's life; a
`std::runtime_error` of `setup_uring` or `exec` ends the run.  Left out are the texts on `std::cout`
and `std::cerr`, `start_time`, and what is left of the kernel's work when the ring is taken down
(`io_uring_queue_exit`).
-/

namespace ClientServer.Mync

open Std (ExtTreeMap)

/-! ## The process -/

/-- The server program over io_uring, with what comes in. -/
structure UringServer where
  relay : UringBidirectionalRelay
  /-- The requests that have completed, in the order in which `io_uring_wait_cqe` returns them. -/
  completed : List (Ticket Request × Completion)
  stdin : Source
  /-- The connections, by their descriptors. -/
  peers : Fd → Source
  /-- The descriptors that are open, but for standard output, standard error and the ring's. -/
  opened : Finset Fd
  /-- The destructor has run. -/
  destroyed : Bool
  /-- All that a connection's peer sends. -/
  streams : Fd → Bytes
  /-- What was to be written to standard output for a connection. -/
  written : Fd → Bytes
  /-- What of standard input the loop has got to. -/
  heard : Bytes
  /-- The same when a client was adopted. -/
  heardBefore : Fd → Bytes
  /-- What `send` was given for a client since it was adopted. -/
  sent : Fd → List Sent

/-- What can happen next. -/
inductive UringServerAct
  | stdinArrives (n : ℕ)
  | stdinCloses
  | peerArrives (fd : Fd) (n : ℕ)
  | peerCloses (fd : Fd)
  /-- The kernel completes a request; `stream` is what the peer of a new connection sends. -/
  | completes (req : Ticket Request) (c : Completion) (stream : Bytes)
  | interrupted
  /-- The loop gets to the next completion. -/
  | handle
  | destroy

namespace UringServer

open UringBidirectionalRelay

/-- The server with its socket listening, before `exec`. -/
def new (sock created : Fd) (armed : Bool) (input : Bytes) : UringServer where
  relay := .new sock true created armed
  completed := []
  stdin := .new input
  peers := fun _ => .new []
  opened := {stdinFileno, sock} ∪
    if 0 ≤ createTimer created armed then {createTimer created armed} else ∅
  destroyed := false
  streams := fun _ => []
  written := fun _ => []
  heard := []
  heardBefore := fun _ => []
  sent := fun _ => []

/-- The kernel reads what a stream has, and gives a new connection a number that is not in use. -/
def Allows (w : UringServer) (req : Ticket Request) (c : Completion) : Prop :=
  (req.request.type = .stdinRead → c.Fits ∧ w.stdin.Allows c.answer) ∧
    (req.request.type = .clientRead → c.Fits ∧ (w.peers req.request.fd).Allows c.answer) ∧
    (Adopts req c → c.res ∉ w.opened)

instance (w : UringServer) (req : Ticket Request) (c : Completion) : Decidable (w.Allows req c) :=
  inferInstanceAs (Decidable (_ ∧ _ ∧ _))

/-- A request completes. -/
def complete (w : UringServer) (req : Ticket Request) (c : Completion) (stream : Bytes) :
    UringServer :=
  let w := { w with completed := w.completed ++ [(req, c)] }
  match req.request.type with
  | .stdinRead => { w with stdin := w.stdin.read c.answer }
  | .clientRead =>
    { w with
      peers := Function.update w.peers req.request.fd ((w.peers req.request.fd).read c.answer) }
  | .accept =>
    if 0 ≤ c.res then
      { w with
        peers := Function.update w.peers c.res (.new stream)
        opened := insert c.res w.opened
        streams := Function.update w.streams c.res stream
        written := Function.update w.written c.res [] }
    else w
  | .socketRead | .timerRead => w

/-- The server after the loop has got to the completion of `req`, with this result. -/
def absorb (w : UringServer) (req : Ticket Request) (c : Completion)
    (rest : List (Ticket Request × Completion))
    (result : UringBidirectionalRelay × List Call) : UringServer :=
  let fd := req.request.fd
  { w with
    relay := result.1
    completed := rest
    opened := w.opened \ (closes result.2).toFinset
    written :=
      if req.request.type = .clientRead then
        Function.update w.written fd (w.written fd ++ writtenBy result.2)
      else w.written
    heard := if req.request.type = .stdinRead then w.heard ++ c.chunk else w.heard
    heardBefore :=
      if Adopts req c then Function.update w.heardBefore c.res w.heard else w.heardBefore
    sent :=
      if Adopts req c then Function.update w.sent c.res []
      else fun x => w.sent x ++ sentOn x result.2 }

/-- One step, with the calls it makes; none where it cannot be taken. -/
def outcome (w : UringServer) : UringServerAct → Option (UringServer × List Call)
  | .stdinArrives n => some ({ w with stdin := w.stdin.arrive n }, [])
  | .stdinCloses =>
    if w.stdin.coming = [] then some ({ w with stdin := { w.stdin with closed := true } }, [])
    else none
  | .peerArrives fd n =>
    some ({ w with peers := Function.update w.peers fd ((w.peers fd).arrive n) }, [])
  | .peerCloses fd =>
    if (w.peers fd).coming = [] then
      some ({ w with peers := Function.update w.peers fd { w.peers fd with closed := true } }, [])
    else none
  | .completes req c stream =>
    if w.destroyed = false ∧ req ∈ w.relay.ring.inFlight ∧ req ∉ w.completed.map (·.1) ∧
        w.Allows req c then
      some (w.complete req c stream, [])
    else none
  | .interrupted => if w.relay.Looping then some (w, []) else none
  | .handle =>
    match w.completed with
    | [] => none
    | (req, c) :: rest =>
      if w.relay.Looping then
        let result := w.relay.onCompletion req c
        some (w.absorb req c rest result, result.2)
      else none
  | .destroy =>
    if ¬ w.relay.Looping ∧ w.destroyed = false then
      some ({ w with
        opened := w.opened \ (closes w.relay.destroy).toFinset
        destroyed := true }, w.relay.destroy)
    else none

/-- The state after one step. -/
def next (w : UringServer) (a : UringServerAct) : Option UringServer := (w.outcome a).map (·.1)

/-- The descriptors of the connections that were accepted and are not clients yet. -/
def accepted (w : UringServer) : List Fd :=
  (w.completed.filter fun d => Adopts d.1 d.2).map (·.2.res)

/-- Open, of the descriptors counted, are standard input, the listening socket, the connections
that the loop has not got to, and until they are closed the timer and the clients. -/
def NothingLeaked (sock : Fd) (w : UringServer) : Prop :=
  ∀ fd, fd ∈ w.opened ↔ fd = stdinFileno ∨ fd = sock ∨ fd ∈ w.accepted ∨
    w.destroyed = false ∧ (fd ∈ w.relay.clients ∨ 0 ≤ w.relay.timerfd ∧ fd = w.relay.timerfd)

/-- Nothing is closed but clients, and by the destructor the timer, each while it is open and
once. -/
def ClosesOwn (w : UringServer) (a : UringServerAct) : Prop :=
  ∀ w' calls, w.outcome a = some (w', calls) → (closes calls).Nodup ∧
    ∀ fd ∈ closes calls, fd ∈ w.opened ∧
      (fd ∈ w.relay.clients ∨ 0 ≤ w.relay.timerfd ∧ fd = w.relay.timerfd)

end UringServer

/-! ## The steps -/

namespace UringServer

open UringBidirectionalRelay

variable {w w' : UringServer} {req : Ticket Request} {c : Completion} {stream : Bytes}
  {rest : List (Ticket Request × Completion)} {fd : Fd} {calls : List Call} {a : UringServerAct}

/-- What the completion of a request changes. -/
inductive Completes (w : UringServer) (req : Ticket Request) (c : Completion) (stream : Bytes) :
    UringServer → Prop
  | stdin (hreq : req.request.type = .stdinRead) :
      Completes w req c stream { w with
        completed := w.completed ++ [(req, c)], stdin := w.stdin.read c.answer }
  | client (hreq : req.request.type = .clientRead) :
      Completes w req c stream { w with
        completed := w.completed ++ [(req, c)]
        peers := Function.update w.peers req.request.fd
          ((w.peers req.request.fd).read c.answer) }
  | adopts (hadopts : Adopts req c) :
      Completes w req c stream { w with
        completed := w.completed ++ [(req, c)]
        peers := Function.update w.peers c.res (.new stream)
        opened := insert c.res w.opened
        streams := Function.update w.streams c.res stream
        written := Function.update w.written c.res [] }
  | other (hstdin : req.request.type ≠ .stdinRead) (hclient : req.request.type ≠ .clientRead)
      (hadopts : ¬ Adopts req c) :
      Completes w req c stream { w with completed := w.completed ++ [(req, c)] }

lemma completes_complete (w : UringServer) (req : Ticket Request) (c : Completion)
    (stream : Bytes) : w.Completes req c stream (w.complete req c stream) := by
  unfold complete
  split
  · rename_i htype
    exact .stdin htype
  · rename_i htype
    exact .client htype
  · rename_i htype
    split_ifs with hres
    · exact .adopts ⟨htype, hres⟩
    · refine .other ?_ ?_ fun hadopts => hres hadopts.2
      all_goals
        rw [htype]
        exact OpType.noConfusion
  · rename_i htype
    exact .other (by rw [htype]; exact OpType.noConfusion) (by rw [htype]; exact OpType.noConfusion)
      fun hadopts => OpType.noConfusion (htype.symm.trans hadopts.1)
  · rename_i htype
    exact .other (by rw [htype]; exact OpType.noConfusion) (by rw [htype]; exact OpType.noConfusion)
      fun hadopts => OpType.noConfusion (htype.symm.trans hadopts.1)

namespace Completes

lemma relay (h : w.Completes req c stream w') : w'.relay = w.relay := by cases h <;> rfl

lemma completed (h : w.Completes req c stream w') : w'.completed = w.completed ++ [(req, c)] := by
  cases h <;> rfl

lemma destroyed (h : w.Completes req c stream w') : w'.destroyed = w.destroyed := by
  cases h <;> rfl

lemma mem_opened (h : w.Completes req c stream w') :
    fd ∈ w'.opened ↔ Adopts req c ∧ fd = c.res ∨ fd ∈ w.opened := by
  have hnot (hadopts : ¬ Adopts req c) :
      fd ∈ w.opened ↔ Adopts req c ∧ fd = c.res ∨ fd ∈ w.opened :=
    (or_iff_right fun h => hadopts h.1).symm
  cases h with
  | stdin htype | client htype =>
    exact hnot fun hadopts => OpType.noConfusion (htype.symm.trans hadopts.1)
  | other _ _ hadopts => exact hnot hadopts
  | adopts hadopts => rw [Finset.mem_insert, and_iff_right hadopts]

end Completes

/-- What a step does. -/
inductive Steps (w : UringServer) : UringServer → List Call → Prop
  | stdin {s : Source} (hleft : s.left = w.stdin.left) : Steps w { w with stdin := s } []
  | peer {fd : Fd} {s : Source} (hleft : s.left = (w.peers fd).left) :
      Steps w { w with peers := Function.update w.peers fd s } []
  | interrupted : Steps w w []
  | completed {req : Ticket Request} {c : Completion} {stream : Bytes}
      (hlive : w.destroyed = false) (hreq : req ∈ w.relay.ring.inFlight)
      (hnew : req ∉ w.completed.map (·.1)) (hallows : w.Allows req c) {w' : UringServer}
      (hcompletes : w.Completes req c stream w') : Steps w w' []
  | handled {req : Ticket Request} {c : Completion} {rest : List (Ticket Request × Completion)}
      (hnext : w.completed = (req, c) :: rest) (hloop : w.relay.Looping) :
      Steps w (w.absorb req c rest (w.relay.onCompletion req c)) (w.relay.onCompletion req c).2
  | destroyed (hends : ¬ w.relay.Looping) (hlive : w.destroyed = false) :
      Steps w { w with
        opened := w.opened \ (closes w.relay.destroy).toFinset
        destroyed := true } w.relay.destroy

lemma steps_of_outcome (h : w.outcome a = some (w', calls)) : w.Steps w' calls := by
  cases a with
  | stdinArrives n =>
    cases h
    exact .stdin (Source.left_arrive w.stdin n)
  | stdinCloses =>
    obtain ⟨-, h⟩ := Option.ite_none_right_eq_some.1 h
    cases h
    exact .stdin rfl
  | peerArrives fd n =>
    cases h
    exact .peer (Source.left_arrive (w.peers fd) n)
  | peerCloses fd =>
    obtain ⟨-, h⟩ := Option.ite_none_right_eq_some.1 h
    cases h
    exact .peer rfl
  | completes req c stream =>
    obtain ⟨⟨hlive, hreq, hnew, hallows⟩, h⟩ := Option.ite_none_right_eq_some.1 h
    cases h
    exact .completed hlive hreq hnew hallows (w.completes_complete req c stream)
  | interrupted =>
    obtain ⟨-, h⟩ := Option.ite_none_right_eq_some.1 h
    cases h
    exact .interrupted
  | handle =>
    simp only [outcome] at h
    split at h
    · cases h
    · rename_i hnext
      obtain ⟨hloop, h⟩ := Option.ite_none_right_eq_some.1 h
      cases h
      exact .handled hnext hloop
  | destroy =>
    obtain ⟨⟨hends, hlive⟩, h⟩ := Option.ite_none_right_eq_some.1 h
    cases h
    exact .destroyed hends hlive

lemma steps_of_next (h : w.next a = some w') : ∃ calls, w.Steps w' calls := by
  obtain ⟨calls, h⟩ := map_fst_eq_some.1 h
  exact ⟨calls, steps_of_outcome h⟩

/-! ## Whose completions these are -/

lemma mem_accepted : fd ∈ w.accepted ↔ ∃ d ∈ w.completed, Adopts d.1 d.2 ∧ d.2.res = fd := by
  unfold accepted
  rw [List.mem_map]
  constructor
  · rintro ⟨d, hd, rfl⟩
    obtain ⟨hmem, hadopts⟩ := List.mem_filter.1 hd
    exact ⟨d, hmem, of_decide_eq_true hadopts, rfl⟩
  · rintro ⟨d, hmem, hadopts, rfl⟩
    exact ⟨d, List.mem_filter.2 ⟨hmem, decide_eq_true hadopts⟩, rfl⟩

/-- The completions are of requests in flight, one each, and as long as the object lives the
clients and the connections to come are open and different. -/
structure Tracked (w : UringServer) : Prop where
  serving : w.relay.Serving
  tickets : (w.completed.map (·.1)).Nodup
  inFlight : ∀ d ∈ w.completed, d.1 ∈ w.relay.ring.inFlight
  running : w.relay.Looping → w.destroyed = false
  clients : w.destroyed = false → ∀ fd ∈ w.relay.clients, fd ∈ w.opened
  accepted : w.destroyed = false → ∀ fd ∈ w.accepted, fd ∈ w.opened ∧ fd ∉ w.relay.clients

namespace Tracked

/-- The loop gets to a request in flight, and not to a second one for the same thing. -/
lemma head (h : w.Tracked) (hnext : w.completed = (req, c) :: rest) (hloop : w.relay.Looping) :
    req ∈ w.relay.ring.inFlight ∧ ∀ d ∈ rest, d.1.request ≠ req.request := by
  have hreq := h.inFlight (req, c) (by rw [hnext]; exact List.mem_cons_self)
  refine ⟨hreq, fun d hd hsame => ?_⟩
  have hfirst := h.tickets
  rw [hnext, List.map_cons, List.nodup_cons] at hfirst
  have hd' := h.inFlight d (by rw [hnext]; exact List.mem_cons_of_mem _ hd)
  rw [← h.serving.unique hloop hreq hd' hsame] at hfirst
  exact hfirst.1 (List.mem_map_of_mem hd)

/-- No second connection is accepted before the loop has got to the first. -/
lemma not_adopts (h : w.Tracked) (hnext : w.completed = (req, c) :: rest)
    (hloop : w.relay.Looping) (hadopts : Adopts req c) :
    ∀ d ∈ rest, ¬ Adopts d.1 d.2 := by
  intro d hd hadopts'
  obtain ⟨hreq, hothers⟩ := h.head hnext hloop
  have hd' := h.inFlight d (by rw [hnext]; exact List.mem_cons_of_mem _ hd)
  obtain ⟨m, closed, hserved⟩ := h.serving.served hloop hreq c
  obtain ⟨m', closed', hserved'⟩ := h.serving.served hloop hd' d.2
  refine hothers d hd ?_
  rw [(hserved.serves.adopts_iff.1 hadopts).1, (hserved'.serves.adopts_iff.1 hadopts').1]

lemma mayComplete (h : w.Tracked) (hnext : w.completed = (req, c) :: rest)
    (hloop : w.relay.Looping) : w.relay.MayComplete req c := by
  refine ⟨(h.head hnext hloop).1, fun htype hres => ?_⟩
  have hmem : c.res ∈ w.accepted :=
    mem_accepted.2 ⟨(req, c), by rw [hnext]; exact List.mem_cons_self, ⟨htype, hres⟩, rfl⟩
  exact (h.accepted (h.running hloop) _ hmem).2

lemma serving_onCompletion (h : w.Tracked) (hnext : w.completed = (req, c) :: rest)
    (hloop : w.relay.Looping) : (w.relay.onCompletion req c).1.Serving := by
  refine serving_step w.relay (.completed req c) _ h.serving trivial ?_
  unfold step
  rw [if_pos hloop]
  exact if_pos (h.mayComplete hnext hloop)

/-- The step lemma of the loop. -/
lemma served (h : w.Tracked) (hnext : w.completed = (req, c) :: rest) (hloop : w.relay.Looping) :
    ∃ m closed, w.relay.Served req c m closed (w.relay.onCompletion req c) :=
  h.serving.served hloop (h.head hnext hloop).1 c

/-- What is accepted and not adopted yet, before and after the loop gets to a completion. -/
lemma mem_accepted_cons (hnext : w.completed = (req, c) :: rest)
    (result : UringBidirectionalRelay × List Call) :
    fd ∈ w.accepted ↔ Adopts req c ∧ fd = c.res ∨ fd ∈ (w.absorb req c rest result).accepted := by
  rw [mem_accepted, mem_accepted, hnext, List.exists_mem_cons_iff]
  exact or_congr_left (and_congr_right fun _ => eq_comm)

lemma mem_accepted_of_completes (h : w.Completes req c stream w') :
    fd ∈ w'.accepted ↔ fd ∈ w.accepted ∨ Adopts req c ∧ fd = c.res := by
  rw [mem_accepted, mem_accepted, h.completed]
  constructor
  · rintro ⟨d, hd, hadopts, hres⟩
    rcases List.mem_append.1 hd with hd | hd
    · exact .inl ⟨d, hd, hadopts, hres⟩
    · rw [List.mem_singleton.1 hd] at hadopts hres
      exact .inr ⟨hadopts, hres.symm⟩
  · rintro (⟨d, hd, hadopts⟩ | ⟨hadopts, hres⟩)
    · exact ⟨d, List.mem_append_left _ hd, hadopts⟩
    · exact ⟨(req, c), List.mem_append_right _ List.mem_cons_self, hadopts, hres.symm⟩

lemma completes (h : w.Tracked) (hlive : w.destroyed = false)
    (hreq : req ∈ w.relay.ring.inFlight) (hnew : req ∉ w.completed.map (·.1))
    (hallows : w.Allows req c) (hcompletes : w.Completes req c stream w') : w'.Tracked := by
  have hfresh (hadopts : Adopts req c) : c.res ∉ w.relay.clients :=
    fun hclient => hallows.2.2 hadopts (h.clients hlive _ hclient)
  refine ⟨?_, ?_, ?_, ?_, fun _ => ?_, fun _ => ?_⟩
  · rw [hcompletes.relay]
    exact h.serving
  · rw [hcompletes.completed, List.map_append, List.map_singleton]
    exact List.nodup_append'.2 ⟨h.tickets, List.nodup_singleton _,
      fun t ht ht' => hnew ((show t = req from List.mem_singleton.1 ht') ▸ ht)⟩
  · intro d hd
    rw [hcompletes.completed, List.mem_append, List.mem_singleton] at hd
    rw [hcompletes.relay]
    rcases hd with hd | rfl
    · exact h.inFlight d hd
    · exact hreq
  · rw [hcompletes.relay, hcompletes.destroyed]
    exact h.running
  · intro fd hfd
    rw [hcompletes.relay] at hfd
    exact hcompletes.mem_opened.2 (.inr (h.clients hlive fd hfd))
  · intro fd hfd
    rw [hcompletes.relay, hcompletes.mem_opened]
    rcases (mem_accepted_of_completes hcompletes).1 hfd with hfd | ⟨hadopts, rfl⟩
    · obtain ⟨hopen, hclient⟩ := h.accepted hlive fd hfd
      exact ⟨.inr hopen, hclient⟩
    · exact ⟨.inl ⟨hadopts, rfl⟩, hfresh hadopts⟩

lemma handled (h : w.Tracked) (hnext : w.completed = (req, c) :: rest)
    (hloop : w.relay.Looping) :
    (w.absorb req c rest (w.relay.onCompletion req c)).Tracked := by
  obtain ⟨m, closed, hserved⟩ := h.served hnext hloop
  have hlive := h.running hloop
  have hclients := hserved.clients
  have htickets := h.tickets
  rw [hnext, List.map_cons, List.nodup_cons] at htickets
  refine ⟨h.serving_onCompletion hnext hloop, htickets.2, ?_, fun _ => hlive, fun _ => ?_,
    fun _ => ?_⟩
  · intro d (hd : d ∈ rest)
    have hother : d.1 ≠ req := fun hsame => htickets.1 (List.mem_map.2 ⟨d, hd, hsame⟩)
    have hflight := h.inFlight d (by rw [hnext]; exact List.mem_cons_of_mem _ hd)
    exact hserved.mem_inFlight hflight hother
  · intro fd hfd
    have hfd : fd ∈ (w.relay.onCompletion req c).1.clients := hfd
    rw [hclients, hserved.serves.mem_iff] at hfd
    show fd ∈ w.opened \ (closes (w.relay.onCompletion req c).2).toFinset
    rw [Finset.mem_sdiff, List.mem_toFinset]
    rcases hfd with ⟨hadopts, rfl⟩ | ⟨hfd, hopen⟩
    · have hacc := (mem_accepted_cons hnext (w.relay.onCompletion req c)).2
        (.inl ⟨hadopts, rfl⟩)
      refine ⟨(h.accepted hlive _ hacc).1, fun hclose => ?_⟩
      exact (hserved.serves.of_mem_closes hclose).2.2 hadopts
    · exact ⟨h.clients hlive fd hfd, hopen⟩
  · intro fd hfd
    have hacc := h.accepted hlive fd ((mem_accepted_cons hnext _).2 (.inr hfd))
    show fd ∈ w.opened \ (closes (w.relay.onCompletion req c).2).toFinset ∧
      fd ∉ (w.relay.onCompletion req c).1.clients
    rw [Finset.mem_sdiff, List.mem_toFinset, hclients, hserved.serves.mem_iff]
    refine ⟨⟨hacc.1, fun hclose => hacc.2 (hserved.serves.of_mem_closes hclose).1⟩, ?_⟩
    rintro (⟨hadopts, -⟩ | ⟨hclient, -⟩)
    · obtain ⟨d, hd, hadopts', -⟩ := mem_accepted.1 hfd
      exact h.not_adopts hnext hloop hadopts d hd hadopts'
    · exact hacc.2 hclient

lemma steps (h : w.Tracked) (hsteps : w.Steps w' calls) : w'.Tracked := by
  cases hsteps with
  | stdin | peer => exact ⟨h.serving, h.tickets, h.inFlight, h.running, h.clients, h.accepted⟩
  | interrupted => exact h
  | completed hlive hreq hnew hallows hcompletes =>
    exact h.completes hlive hreq hnew hallows hcompletes
  | handled hnext hloop => exact h.handled hnext hloop
  | destroyed hends =>
    exact ⟨h.serving, h.tickets, h.inFlight, fun hloop => absurd hloop hends,
      fun hlive => Bool.noConfusion hlive, fun hlive => Bool.noConfusion hlive⟩

lemma new (sock created : Fd) (armed : Bool) (input : Bytes) :
    (UringServer.new sock created armed input).Tracked where
  serving := serving_new sock created armed
  tickets := List.nodup_nil
  inFlight := fun _ hd => absurd hd List.not_mem_nil
  running := fun _ => rfl
  clients := fun _ fd hfd => by
    obtain ⟨ring, hnew⟩ := new_eq sock created armed
    have hfd : fd ∈ (UringBidirectionalRelay.new sock true created armed).clients := hfd
    rw [hnew] at hfd
    exact absurd hfd ExtTreeMap.not_mem_empty
  accepted := fun _ fd hfd => absurd hfd List.not_mem_nil

end Tracked

/-! ## Descriptors -/

lemma closes_destroy (r : UringBidirectionalRelay) :
    closes r.destroy = r.clients.keys ++ if 0 ≤ r.timerfd then [r.timerfd] else [] := by
  unfold closes UringBidirectionalRelay.destroy
  rw [List.filterMap_append, List.filterMap_map]
  congr 1
  · exact List.filterMap_some
  · split_ifs <;> rfl

lemma mem_closes_destroy {r : UringBidirectionalRelay} :
    fd ∈ closes r.destroy ↔ fd ∈ r.clients ∨ 0 ≤ r.timerfd ∧ fd = r.timerfd := by
  rw [closes_destroy, List.mem_append, ExtTreeMap.mem_keys]
  refine or_congr_right ?_
  split_ifs with htimer
  · rw [List.mem_singleton, and_iff_right htimer]
  · exact iff_of_false List.not_mem_nil fun h => htimer h.1

/-- What is open is accounted for, and all of it is different. -/
structure Owned (sock : Fd) (w : UringServer) : Prop where
  leaked : w.NothingLeaked sock
  different : w.destroyed = false → ∀ fd, fd ∈ w.relay.clients ∨ fd ∈ w.accepted →
    fd ≠ stdinFileno ∧ fd ≠ sock ∧ ¬ (0 ≤ w.relay.timerfd ∧ fd = w.relay.timerfd)
  timer : 0 ≤ w.relay.timerfd → w.relay.timerfd ≠ stdinFileno ∧ w.relay.timerfd ≠ sock

namespace Owned

variable {sock : Fd}

lemma completes (h : w.Owned sock) (hlive : w.destroyed = false) (hallows : w.Allows req c)
    (hcompletes : w.Completes req c stream w') : w'.Owned sock := by
  refine ⟨fun fd => ?_, fun _ fd hfd => ?_, ?_⟩
  · rw [hcompletes.mem_opened, h.leaked fd, Tracked.mem_accepted_of_completes hcompletes,
      hcompletes.relay, hcompletes.destroyed]
    tauto
  · rw [hcompletes.relay] at hfd ⊢
    rw [Tracked.mem_accepted_of_completes hcompletes, ← or_assoc] at hfd
    rcases hfd with hfd | ⟨hadopts, rfl⟩
    · exact h.different hlive fd hfd
    · have hfresh := hallows.2.2 hadopts
      rw [h.leaked c.res] at hfresh
      tauto
  · rw [hcompletes.relay]
    exact h.timer

lemma handled (h : w.Owned sock) (htracked : w.Tracked) (hnext : w.completed = (req, c) :: rest)
    (hloop : w.relay.Looping) :
    (w.absorb req c rest (w.relay.onCompletion req c)).Owned sock := by
  obtain ⟨m, closed, hserved⟩ := htracked.served hnext hloop
  have hlive := htracked.running hloop
  have hserves := hserved.serves
  have haccepted (fd : Fd) : fd ∈ w.accepted ↔ Adopts req c ∧ fd = c.res ∨
      fd ∈ (w.absorb req c rest (w.relay.onCompletion req c)).accepted :=
    Tracked.mem_accepted_cons hnext _
  refine ⟨fun fd => ?_, fun _ fd hfd => ?_, ?_⟩
  · show fd ∈ w.opened \ (closes (w.relay.onCompletion req c).2).toFinset ↔
      fd = stdinFileno ∨ fd = sock ∨
        fd ∈ (w.absorb req c rest (w.relay.onCompletion req c)).accepted ∨
        w.destroyed = false ∧ (fd ∈ (w.relay.onCompletion req c).1.clients ∨
          0 ≤ (w.relay.onCompletion req c).1.timerfd ∧
            fd = (w.relay.onCompletion req c).1.timerfd)
    rw [Finset.mem_sdiff, List.mem_toFinset, hserved.clients, hserved.timerfd, hserves.mem_iff]
    constructor
    · rintro ⟨hopen, hkept⟩
      rcases (h.leaked fd).1 hopen with hfd | hfd | hfd | ⟨-, hfd | hfd⟩
      · exact .inl hfd
      · exact .inr (.inl hfd)
      · rcases (haccepted fd).1 hfd with hadopts | hfd
        · exact .inr (.inr (.inr ⟨hlive, .inl (.inl hadopts)⟩))
        · exact .inr (.inr (.inl hfd))
      · exact .inr (.inr (.inr ⟨hlive, .inl (.inr ⟨hfd, hkept⟩)⟩))
      · exact .inr (.inr (.inr ⟨hlive, .inr hfd⟩))
    · intro hfd
      refine ⟨(h.leaked fd).2 ?_, fun hclose => ?_⟩
      · rcases hfd with hfd | hfd | hfd | ⟨-, (hadopts | ⟨hfd, -⟩) | hfd⟩
        · exact .inl hfd
        · exact .inr (.inl hfd)
        · exact .inr (.inr (.inl ((haccepted fd).2 (.inr hfd))))
        · exact .inr (.inr (.inl ((haccepted fd).2 (.inl hadopts))))
        · exact .inr (.inr (.inr ⟨hlive, .inl hfd⟩))
        · exact .inr (.inr (.inr ⟨hlive, .inr hfd⟩))
      · -- a client is closed, and it is none of the others
        obtain ⟨hclient, -, hnot⟩ := hserves.of_mem_closes hclose
        obtain ⟨hstdin, hsock, htimer⟩ := h.different hlive fd (.inl hclient)
        rcases hfd with hfd | hfd | hfd | ⟨-, (hadopts | ⟨-, hkept⟩) | hfd⟩
        · exact hstdin hfd
        · exact hsock hfd
        · exact (htracked.accepted hlive fd ((haccepted fd).2 (.inr hfd))).2 hclient
        · exact hnot hadopts.1
        · exact hkept hclose
        · exact htimer hfd
  · have hfd : fd ∈ (w.relay.onCompletion req c).1.clients ∨
      fd ∈ (w.absorb req c rest (w.relay.onCompletion req c)).accepted := hfd
    show fd ≠ stdinFileno ∧ fd ≠ sock ∧ ¬ (0 ≤ (w.relay.onCompletion req c).1.timerfd ∧
      fd = (w.relay.onCompletion req c).1.timerfd)
    rw [hserved.clients, hserves.mem_iff] at hfd
    rw [hserved.timerfd]
    refine h.different hlive fd ?_
    rw [haccepted]
    tauto
  · have htimer := h.timer
    rw [← hserved.timerfd] at htimer
    exact htimer

lemma destroyed (h : w.Owned sock) (htracked : w.Tracked) (hlive : w.destroyed = false) :
    Owned sock { w with
      opened := w.opened \ (closes w.relay.destroy).toFinset
      destroyed := true } := by
  refine ⟨fun fd => ?_, fun hlive => Bool.noConfusion hlive, h.timer⟩
  show fd ∈ w.opened \ (closes w.relay.destroy).toFinset ↔
    fd = stdinFileno ∨ fd = sock ∨ fd ∈ w.accepted ∨ true = false ∧ _
  rw [Finset.mem_sdiff, List.mem_toFinset, mem_closes_destroy]
  constructor
  · rintro ⟨hopen, hkept⟩
    rcases (h.leaked fd).1 hopen with hfd | hfd | hfd | ⟨-, hfd⟩
    · exact .inl hfd
    · exact .inr (.inl hfd)
    · exact .inr (.inr (.inl hfd))
    · exact absurd hfd hkept
  · intro hfd
    refine ⟨(h.leaked fd).2 ?_, ?_⟩
    · rcases hfd with hfd | hfd | hfd | ⟨hfalse, -⟩
      · exact .inl hfd
      · exact .inr (.inl hfd)
      · exact .inr (.inr (.inl hfd))
      · cases hfalse
    · rintro (hclient | ⟨htimer, rfl⟩)
      · obtain ⟨hstdin, hsock, -⟩ := h.different hlive fd (.inl hclient)
        rcases hfd with hfd | hfd | hfd | ⟨hfalse, -⟩
        · exact hstdin hfd
        · exact hsock hfd
        · exact (htracked.accepted hlive fd hfd).2 hclient
        · cases hfalse
      · obtain ⟨hstdin, hsock⟩ := h.timer htimer
        rcases hfd with hfd | hfd | hfd | ⟨hfalse, -⟩
        · exact hstdin hfd
        · exact hsock hfd
        · exact (h.different hlive _ (.inr hfd)).2.2 ⟨htimer, rfl⟩
        · cases hfalse

lemma steps (h : w.Owned sock) (htracked : w.Tracked) (hsteps : w.Steps w' calls) :
    w'.Owned sock := by
  cases hsteps with
  | stdin | peer => exact ⟨h.leaked, h.different, h.timer⟩
  | interrupted => exact h
  | completed hlive _ _ hallows hcompletes => exact h.completes hlive hallows hcompletes
  | handled hnext hloop => exact h.handled htracked hnext hloop
  | destroyed _ hlive => exact h.destroyed htracked hlive

lemma closesOwn (h : w.Owned sock) (htracked : w.Tracked) (a : UringServerAct) :
    w.ClosesOwn a := by
  intro w' calls hout
  have hopen {fd : Fd} (hlive : w.destroyed = false)
      (hfd : fd ∈ w.relay.clients ∨ 0 ≤ w.relay.timerfd ∧ fd = w.relay.timerfd) :
      fd ∈ w.opened := (h.leaked fd).2 (.inr (.inr (.inr ⟨hlive, hfd⟩)))
  cases steps_of_outcome hout with
  | stdin | peer | interrupted | completed =>
    exact ⟨List.nodup_nil, fun _ hfd => absurd hfd List.not_mem_nil⟩
  | handled hnext hloop =>
    obtain ⟨m, closed, hserved⟩ := htracked.served hnext hloop
    refine ⟨hserved.serves.nodup_closes, fun fd hfd => ?_⟩
    have hclient := (hserved.serves.of_mem_closes hfd).1
    exact ⟨hopen (htracked.running hloop) (.inl hclient), .inl hclient⟩
  | destroyed _ hlive =>
    refine ⟨?_, fun fd hfd => ?_⟩
    · rw [closes_destroy]
      split_ifs with htimer
      · refine List.nodup_append'.2 ⟨w.relay.clients.nodup_keys, List.nodup_singleton _, ?_⟩
        intro fd hfd hsame
        exact (h.different hlive fd (.inl (ExtTreeMap.mem_keys.1 hfd))).2.2
          ⟨htimer, List.mem_singleton.1 hsame⟩
      · rw [List.append_nil]
        exact w.relay.clients.nodup_keys
    · have hfd := mem_closes_destroy.1 hfd
      exact ⟨hopen hlive hfd, hfd⟩

end Owned

lemma clients_new (sock created : Fd) (armed : Bool) (input : Bytes) :
    (new sock created armed input).relay.clients = ∅ ∧
      (new sock created armed input).relay.timerfd = createTimer created armed := by
  obtain ⟨ring, hnew⟩ := new_eq sock created armed
  show (UringBidirectionalRelay.new sock true created armed).clients = ∅ ∧
    (UringBidirectionalRelay.new sock true created armed).timerfd = _
  rw [hnew]
  exact ⟨rfl, rfl⟩

lemma owned_new {sock created : Fd} (hstdin : created ≠ stdinFileno) (hsock : created ≠ sock)
    (armed : Bool) (input : Bytes) : (new sock created armed input).Owned sock := by
  obtain ⟨hnone, htimer⟩ := clients_new sock created armed input
  refine ⟨fun fd => ?_, fun _ fd hfd => ?_, ?_⟩
  · rw [hnone, htimer]
    show fd ∈ {stdinFileno, sock} ∪ (if 0 ≤ createTimer created armed then
      {createTimer created armed} else ∅ : Finset Fd) ↔
      fd = stdinFileno ∨ fd = sock ∨ fd ∈ ([] : List Fd) ∨ false = false ∧ _
    rw [Finset.mem_union, Finset.mem_insert, Finset.mem_singleton, or_assoc,
      or_iff_right (List.not_mem_nil (a := fd)), and_iff_right rfl,
      or_iff_right ExtTreeMap.not_mem_empty]
    split_ifs with hpos
    · rw [Finset.mem_singleton, and_iff_right hpos]
    · simp only [Finset.notMem_empty, hpos, false_and]
  · rw [hnone] at hfd
    rcases hfd with hfd | hfd
    · exact absurd hfd ExtTreeMap.not_mem_empty
    · exact absurd hfd List.not_mem_nil
  · rw [htimer]
    intro hpos
    have hcreated : createTimer created armed = created := by
      unfold createTimer at hpos ⊢
      split_ifs at hpos ⊢
      · exact absurd hpos (by decide)
      · rfl
      · exact absurd hpos (by decide)
    rw [hcreated]
    exact ⟨hstdin, hsock⟩

lemma preserves_owned (sock : Fd) :
    Preserves next (fun _ _ => True) fun w => w.Tracked ∧ w.Owned sock := by
  rintro w a w' ⟨htracked, howned⟩ - hstep
  obtain ⟨calls, hsteps⟩ := steps_of_next hstep
  exact ⟨htracked.steps hsteps, howned.steps htracked hsteps⟩

/-- **The server over io_uring closes what is its own, once, and nothing else.**  Throughout every
run what is open, standard output, standard error and the ring aside, is standard input, the
listening socket, the timer, the clients and the connections that the loop has not got to; every
`close` is of a client or of the timer and finds it open; and after the destructor the timer and the
clients are closed. -/
theorem nothingLeaked_throughout {sock created : Fd} (hstdin : created ≠ stdinFileno)
    (hsock : created ≠ sock) (armed : Bool) (input : Bytes) (acts : List UringServerAct) :
    Throughout next (NothingLeaked sock) (new sock created armed input) acts ∧
      Along next ClosesOwn (new sock created armed input) acts := by
  have hnew := And.intro (Tracked.new sock created armed input)
    (owned_new hstdin hsock armed input)
  exact ⟨(preserves_owned sock).throughout (fun _ h => h.2.leaked) hnew
      (along_of_forall (fun _ _ => trivial) _ _),
    (preserves_owned sock).along (fun _ a _ h _ _ => h.2.closesOwn h.1 a) hnew
      (along_of_forall (fun _ _ => trivial) _ _)⟩

/-- A client comes and goes, the next one gets its descriptor, and the loop ends before it gets to
the third. -/
def reuse : List UringServerAct :=
  [.completes ⟨1, acceptRequest 3⟩ ⟨6, [], "", true, 0⟩ [7], .handle,
    .peerArrives 6 1, .completes ⟨3, clientRequest 6⟩ ⟨1, [7], "", true, 0⟩ [], .handle,
    .peerCloses 6, .completes ⟨5, clientRequest 6⟩ ⟨0, [], "", true, 0⟩ [], .handle,
    .completes ⟨4, acceptRequest 3⟩ ⟨6, [], "", true, 0⟩ [8], .handle,
    .stdinCloses, .completes ⟨0, stdinRequest⟩ ⟨0, [], "", true, 0⟩ [],
    .completes ⟨7, acceptRequest 3⟩ ⟨8, [], "", true, 0⟩ [9], .handle, .destroy]

theorem nothingLeaked_throughout_reused :
    Throughout next (NothingLeaked 3) (new 3 5 true []) reuse ∧
      Along next ClosesOwn (new 3 5 true []) reuse :=
  nothingLeaked_throughout (by decide) (by decide) true [] reuse

end UringServer

end ClientServer.Mync
