import ClientServer.Mync.UringClient

/-!
# What the handlers of the server over io_uring do

In listen mode a handler frees the request that has completed and may put others in the ring
(`Submits`); beyond that a completion can do nine things, which `Serves` lists with the calls they
make.  As there is one request in flight for one thing, two completions are never of the same.
-/

namespace ClientServer.Mync

open Std (ExtTreeMap)

namespace UringBidirectionalRelay

variable {r r' r'' : UringBidirectionalRelay} {req t : Ticket Request} {c : Completion}

/-! ## What the handlers have in common -/

/-- The object is the same but for the ring, and everything in flight still is. -/
def Submits (r r' : UringBidirectionalRelay) : Prop :=
  ∃ ring, r' = { r with ring := ring } ∧ r.ring.inFlight <+: ring.inFlight

namespace Submits

lemma refl (r : UringBidirectionalRelay) : r.Submits r := ⟨r.ring, rfl, List.prefix_refl _⟩

lemma trans (h : r.Submits r') (h' : r'.Submits r'') : r.Submits r'' := by
  obtain ⟨ring, rfl, hring⟩ := h
  obtain ⟨ring', rfl, hring'⟩ := h'
  exact ⟨ring', rfl, hring.trans hring'⟩

lemma ringSubmit (h : r.Submits r') : r.Submits r'.ringSubmit :=
  h.trans ⟨r'.ring.submit, rfl, List.prefix_append _ _⟩

lemma delete (h : r.Submits r') (t : Ticket Request) : r.Submits (r'.delete t) :=
  h.trans ⟨r'.ring.free t, rfl, List.prefix_refl _⟩

/-- Preparing a request leaves alone what is in flight. -/
lemma inFlight_prepare {g g' : Ring Request} {q : Request}
    (h : g.prepare ringEntries q = some g') : g'.inFlight = g.inFlight := by
  unfold Ring.prepare at h
  split_ifs at h
  cases h
  rfl

lemma submitRequest (h : r.Submits r') (q : Request) : r.Submits (r'.submitRequest q) := by
  refine h.trans ?_
  unfold UringBidirectionalRelay.submitRequest
  split
  · rename_i ring hprepare
    exact ⟨ring, rfl, by rw [inFlight_prepare hprepare]⟩
  · split
    · rename_i ring hprepare
      exact ⟨ring, rfl, by rw [inFlight_prepare hprepare]; exact List.prefix_append _ _⟩
    · exact (refl r').ringSubmit

lemma submitClientRead (h : r.Submits r') (fd : Fd) : r.Submits (r'.submitClientRead fd) := by
  unfold UringBidirectionalRelay.submitClientRead
  split_ifs
  · exact h.submitRequest _
  · exact h

lemma submitAccept (h : r.Submits r') : r.Submits r'.submitAccept := by
  unfold UringBidirectionalRelay.submitAccept
  split_ifs
  · exact h
  · exact h.submitRequest _

lemma submitStdinRead (h : r.Submits r') : r.Submits r'.submitStdinRead := by
  unfold UringBidirectionalRelay.submitStdinRead
  split_ifs
  · exact h
  · exact h.submitRequest _

lemma resubmitTimer (h : r.Submits r') : r.Submits r'.resubmitTimer := by
  refine h.trans ?_
  unfold UringBidirectionalRelay.resubmitTimer
  split_ifs
  · split
    · rename_i ring hprepare
      have hsame : r'.Submits { r' with ring := ring } :=
        ⟨ring, rfl, by rw [inFlight_prepare hprepare]⟩
      exact hsame.ringSubmit
    · exact refl r'
  · exact refl r'

end Submits

/-! ## What a completed request does -/

/-- What a completed request does to the clients and to the flag of standard input, and what is
called on the way. -/
inductive Serves (r : UringBidirectionalRelay) (req : Ticket Request) (c : Completion) :
    ExtTreeMap Fd Stats → Bool → List Call → Prop
  | broadcast (hreq : req.request = stdinRequest) (hdata : 0 < c.res) :
      Serves r req c r.clients false (r.clients.keys.map (.send · c.chunk))
  | stdinEof (hreq : req.request = stdinRequest) (hres : c.res = 0) :
      Serves r req c r.clients true (r.clients.keys.map .shutdownWrite)
  | stdinError (hreq : req.request = stdinRequest) (hres : c.res < 0) :
      Serves r req c r.clients true []
  | accepted (hreq : req.request = acceptRequest r.sockfd) (hres : 0 ≤ c.res) :
      Serves r req c (r.clients.insertIfNew c.res (Stats.accepted c.ip c.now)) false []
  | refused (hreq : req.request = acceptRequest r.sockfd) (hres : c.res < 0) :
      Serves r req c r.clients false []
  | ticked (hreq : req.request = timerRequest r.timerfd) (hres : c.res = expirationsSize)
      {calls : List Call} (hcalls : ∀ call ∈ calls, ∃ fd, call = .sendStats fd) :
      Serves r req c (r.clients.map fun _ st => st.tick c.now) false calls
  | idle (hreq : req.request = timerRequest r.timerfd) (hres : c.res ≠ expirationsSize) :
      Serves r req c r.clients false []
  | received {fd : Fd} (hreq : req.request = clientRequest fd) (hfd : fd ∈ r.clients)
      (hdata : 0 < c.res) :
      Serves r req c (r.clients.modify fd (·.addBytes c.res.toNat)) false [.writeStdout c.chunk]
  | removed {fd : Fd} (hreq : req.request = clientRequest fd) (hfd : fd ∈ r.clients)
      (hres : c.res ≤ 0) : Serves r req c (r.clients.erase fd) false [.close fd]

/-- A handler has served the request and freed it, and may have put others in the ring. -/
structure Served (r : UringBidirectionalRelay) (req : Ticket Request) (c : Completion)
    (m : ExtTreeMap Fd Stats) (closed : Bool) (result : UringBidirectionalRelay × List Call) :
    Prop where
  serves : r.Serves req c m closed result.2
  submits : Submits { r with
    ring := r.ring.complete req, clients := m, stdinClosed := closed } result.1

namespace Served

variable {m : ExtTreeMap Fd Stats} {closed : Bool} {result : UringBidirectionalRelay × List Call}

lemma clients (h : r.Served req c m closed result) : result.1.clients = m := by
  obtain ⟨ring, hrelay, -⟩ := h.submits
  rw [hrelay]

lemma timerfd (h : r.Served req c m closed result) : result.1.timerfd = r.timerfd := by
  obtain ⟨ring, hrelay, -⟩ := h.submits
  rw [hrelay]

lemma mem_inFlight (h : r.Served req c m closed result) (ht : t ∈ r.ring.inFlight)
    (hother : t ≠ req) : t ∈ result.1.ring.inFlight := by
  obtain ⟨ring, hrelay, hprefix⟩ := h.submits
  rw [hrelay]
  exact hprefix.subset ((List.mem_erase_of_ne hother).2 ht)

end Served

lemma served_stdin (hlisten : r.isListen = true) (hloop : r.Looping)
    (hreq : req.request = stdinRequest) (c : Completion) :
    ∃ m closed, r.Served req c m closed
      ({ r with ring := r.ring.complete req }.handleStdinRead req c) := by
  have hdata := Serves.broadcast (r := r) (c := c) hreq
  have heof := Serves.stdinEof (r := r) (c := c) hreq
  have herror := Serves.stdinError (r := r) (c := c) hreq
  obtain ⟨sockfd, isListen, ring, clients, stdinClosed, socketClosed, timerfd⟩ := r
  cases hlisten
  obtain ⟨hstdin, -⟩ := hloop
  cases hstdin
  unfold handleStdinRead relayStdin
  rcases lt_trichotomy c.res 0 with hneg | hzero | hpos
  · rw [if_neg (not_lt.2 hneg.le), if_neg hneg.ne]
    exact ⟨_, true, herror hneg, (Submits.refl _).delete req⟩
  · rw [if_neg (not_lt.2 hzero.le), if_pos hzero]
    exact ⟨_, true, heof hzero, (Submits.refl _).delete req⟩
  · rw [if_pos hpos]
    exact ⟨_, false, hdata hpos, ((Submits.refl _).delete req).submitStdinRead.ringSubmit⟩

lemma served_accept (hloop : r.Looping) (hreq : req.request = acceptRequest r.sockfd)
    (c : Completion) :
    ∃ m closed, r.Served req c m closed
      ({ r with ring := r.ring.complete req }.handleAccept req c, []) := by
  have haccepted := Serves.accepted (r := r) (c := c) hreq
  have hrefused := Serves.refused (r := r) (c := c) hreq
  obtain ⟨sockfd, isListen, ring, clients, stdinClosed, socketClosed, timerfd⟩ := r
  obtain ⟨hstdin, hsocket⟩ := hloop
  cases hstdin
  have hrest {r₀ r₁ : UringBidirectionalRelay} (h : r₀.Submits r₁) :
      r₀.Submits (if (r₁.delete req).socketClosed then r₁.delete req
        else (r₁.delete req).submitAccept.ringSubmit) := by
    split_ifs
    · exact h.delete req
    · exact (h.delete req).submitAccept.ringSubmit
  unfold handleAccept adoptClient
  by_cases hres : 0 ≤ c.res
  · rw [if_pos hres]
    exact ⟨_, false, haccepted hres, hrest ((Submits.refl _).submitClientRead c.res)⟩
  · rw [if_neg hres]
    exact ⟨_, false, hrefused (not_le.1 hres), hrest (Submits.refl _)⟩

lemma served_timer (hloop : r.Looping) (hreq : req.request = timerRequest r.timerfd)
    (c : Completion) :
    ∃ m closed, r.Served req c m closed
      ({ r with ring := r.ring.complete req }.handleTimerRead req c) := by
  have hticked : c.res = expirationsSize → ∀ {calls : List Call},
      (∀ call ∈ calls, ∃ fd, call = .sendStats fd) →
        r.Serves req c (r.clients.map fun _ st => st.tick c.now) false calls := Serves.ticked hreq
  have hidle := Serves.idle (r := r) (c := c) hreq
  obtain ⟨sockfd, isListen, ring, clients, stdinClosed, socketClosed, timerfd⟩ := r
  obtain ⟨hstdin, -⟩ := hloop
  cases hstdin
  unfold handleTimerRead tickClients
  by_cases hres : c.res = expirationsSize
  · rw [if_pos hres]
    refine ⟨_, false, hticked hres ?_, ((Submits.refl _).delete req).resubmitTimer⟩
    intro call hcall
    obtain ⟨client, -, hclient⟩ := List.mem_map.1 hcall
    exact ⟨_, hclient.symm⟩
  · rw [if_neg hres]
    exact ⟨_, false, hidle hres, ((Submits.refl _).delete req).resubmitTimer⟩

lemma removeClient_of_mem {fd : Fd} (hfd : fd ∈ r.clients) :
    r.removeClient fd = ({ r with clients := r.clients.erase fd }, [.close fd]) := if_pos hfd

lemma served_client (hloop : r.Looping) {fd : Fd} (hfd : fd ∈ r.clients)
    (hreq : req.request = clientRequest fd) (c : Completion) :
    ∃ m closed, r.Served req c m closed
      ({ r with ring := r.ring.complete req }.handleClientRead req c) := by
  have hreqFd : req.request.fd = fd := congrArg Request.fd hreq
  have hreceived := Serves.received (r := r) (c := c) hreq hfd
  have hremoved := Serves.removed (r := r) (c := c) hreq hfd
  obtain ⟨sockfd, isListen, ring, clients, stdinClosed, socketClosed, timerfd⟩ := r
  obtain ⟨hstdin, -⟩ := hloop
  cases hstdin
  unfold handleClientRead
  rw [hreqFd, if_pos hfd]
  by_cases hdata : 0 < c.res
  · rw [if_pos hdata]
    exact ⟨_, false, hreceived hdata,
      (((Submits.refl _).delete req).submitClientRead fd).ringSubmit⟩
  · rw [if_neg hdata, removeClient_of_mem]
    · exact ⟨_, false, hremoved (not_lt.1 hdata), (Submits.refl _).delete req⟩
    · exact hfd

/-- The step lemma in listen mode. -/
lemma Serving.served (h : r.Serving) (hloop : r.Looping) (hreq : req ∈ r.ring.inFlight)
    (c : Completion) : ∃ m closed, r.Served req c m closed (r.onCompletion req c) := by
  have hmem := (h.keeps hloop.1).mem_expected hreq
  unfold onCompletion handle
  rcases mem_expected hmem with hrequest | hrequest | ⟨-, hrequest⟩ | ⟨fd, hfd, hrequest⟩
  · rw [show req.request.type = .stdinRead from congrArg Request.type hrequest]
    exact served_stdin h.listens hloop hrequest c
  · rw [show req.request.type = .accept from congrArg Request.type hrequest]
    exact served_accept hloop hrequest c
  · rw [show req.request.type = .timerRead from congrArg Request.type hrequest]
    exact served_timer hloop hrequest c
  · rw [show req.request.type = .clientRead from congrArg Request.type hrequest]
    exact served_client hloop hfd hrequest c

/-! ## What is in flight -/

/-- No two of the expected requests are the same. -/
lemma nodup_expected (r : UringBidirectionalRelay) : r.expected.Nodup := by
  have hclients : ((r.clients.keys : Multiset Fd).map clientRequest).Nodup := by
    refine Multiset.Nodup.map (fun fd fd' h => congrArg Request.fd h) ?_
    exact Multiset.coe_nodup.2 r.clients.nodup_keys
  have hother {q : Request} (hq : q.type ≠ .clientRead) :
      q ∉ (r.clients.keys : Multiset Fd).map clientRequest := by
    intro hmem
    obtain ⟨fd, -, rfl⟩ := Multiset.mem_map.1 hmem
    exact hq rfl
  have htimer {q : Request} (hq : q.type ≠ .timerRead) :
      q ∉ (if 0 ≤ r.timerfd then {timerRequest r.timerfd} else 0 : Multiset Request) := by
    split_ifs
    · exact fun hmem => hq (congrArg Request.type (Multiset.mem_singleton.1 hmem))
    · exact Multiset.notMem_zero q
  unfold expected
  rw [Multiset.nodup_cons, Multiset.nodup_cons, Multiset.nodup_add, Multiset.mem_cons,
    Multiset.mem_add, Multiset.mem_add]
  refine ⟨?_, ?_, ?_, hclients, ?_⟩
  · rintro (hmem | hmem | hmem)
    · exact absurd (congrArg Request.type hmem) OpType.noConfusion
    · exact htimer OpType.noConfusion hmem
    · exact hother OpType.noConfusion hmem
  · rintro (hmem | hmem)
    · exact htimer OpType.noConfusion hmem
    · exact hother OpType.noConfusion hmem
  · split_ifs
    · exact Multiset.nodup_singleton _
    · exact Multiset.nodup_zero
  · rw [Multiset.disjoint_left]
    intro q hq
    split_ifs at hq
    · rw [Multiset.mem_singleton.1 hq]
      exact hother OpType.noConfusion
    · exact absurd hq (Multiset.notMem_zero q)

/-- There is one request in flight for one thing. -/
lemma Serving.unique (h : r.Serving) (hloop : r.Looping) (hreq : req ∈ r.ring.inFlight)
    (ht : t ∈ r.ring.inFlight) (hsame : t.request = req.request) : t = req := by
  have hnodup := r.nodup_expected
  rw [← (h.oneInFlight hloop).outstanding, Multiset.map_coe, Multiset.coe_nodup] at hnodup
  exact List.inj_on_of_nodup_map hnodup ht hreq hsame

/-- The object before `exec`. -/
lemma new_eq (sock created : Fd) (armed : Bool) :
    ∃ ring, new sock true created armed =
      { initial sock true with ring := ring, timerfd := createTimer created armed } := by
  have hnew : new sock true created armed =
    (setupTimer (initial sock true).submitStdinRead.submitAccept created armed).ringSubmit := rfl
  rw [hnew, submitAccept_initial]
  unfold setupTimer
  by_cases htimer : createTimer created armed < 0
  · rw [if_pos htimer]
    exact ⟨_, rfl⟩
  · rw [if_neg htimer, submitRequest_of_room]
    · exact ⟨_, rfl⟩
    · exact (by decide : 2 < ringEntries)

/-- `~UringBidirectionalRelay`. -/
def destroy (r : UringBidirectionalRelay) : List Call :=
  r.clients.keys.map .close ++ if 0 ≤ r.timerfd then [.close r.timerfd] else []

end UringBidirectionalRelay

/-! ## What is closed, written and sent -/

/-- An `accept` that has succeeded. -/
def Adopts (req : Ticket Request) (c : Completion) : Prop :=
  req.request.type = .accept ∧ 0 ≤ c.res

instance (req : Ticket Request) (c : Completion) : Decidable (Adopts req c) :=
  inferInstanceAs (Decidable (_ ∧ _))

/-- What a `send` was given: bytes of standard input, or the text of `checkFourGigabytes`. -/
inductive Sent
  | stdin (bytes : Bytes)
  | stats
  deriving DecidableEq

/-- The bytes of standard input among what was sent. -/
def ofStdin (sent : List Sent) : Bytes :=
  sent.flatMap fun
    | .stdin bytes => bytes
    | .stats => []

/-- What a sequence of calls sends on `fd`. -/
def sentOn (fd : Fd) (calls : List Call) : List Sent :=
  calls.filterMap fun
    | .send x bytes => if x = fd then some (.stdin bytes) else none
    | .sendStats x => if x = fd then some .stats else none
    | _ => none

lemma ofStdin_append (sent sent' : List Sent) :
    ofStdin (sent ++ sent') = ofStdin sent ++ ofStdin sent' := List.flatMap_append

/-- Calls that send nothing of standard input. -/
lemma ofStdin_sentOn_eq_nil {calls : List Call} (h : ∀ x bytes, .send x bytes ∉ calls) (fd : Fd) :
    ofStdin (sentOn fd calls) = [] := by
  unfold ofStdin sentOn
  rw [List.flatMap_eq_nil_iff]
  intro sent hsent
  obtain ⟨call, hcall, heq⟩ := List.mem_filterMap.1 hsent
  cases call with
  | send x bytes => exact absurd hcall (h x bytes)
  | sendStats x =>
    rw [Option.ite_none_right_eq_some] at heq
    cases heq.2
    rfl
  | epollAdd | epollDel | close | shutdownWrite | writeStdout => cases heq

lemma Completion.chunk_eq_nil {c : Completion} (hres : c.res ≤ 0) : c.chunk = [] := by
  rw [chunk, Int.toNat_of_nonpos hres, List.take_zero]

/-- To all that are in a list without repetitions, each is sent it once. -/
lemma sentOn_map_send {fds : List Fd} (hnodup : fds.Nodup) {fd : Fd} (hfd : fd ∈ fds)
    (bytes : Bytes) : sentOn fd (fds.map (.send · bytes)) = [.stdin bytes] := by
  induction fds with
  | nil => cases hfd
  | cons x fds ih =>
    obtain ⟨hx, hrest⟩ := List.nodup_cons.1 hnodup
    unfold sentOn at ih ⊢
    rw [List.map_cons, List.filterMap_cons]
    rcases List.mem_cons.1 hfd with rfl | hfd
    · have hothers : (fds.map (Call.send · bytes)).filterMap (fun
          | .send x bytes => if x = fd then some (.stdin bytes) else none
          | .sendStats x => if x = fd then some .stats else none
          | _ => none) = ([] : List Sent) := by
        rw [List.filterMap_eq_nil_iff]
        intro call hcall
        obtain ⟨y, hy, rfl⟩ := List.mem_map.1 hcall
        exact if_neg (ne_of_mem_of_not_mem hy hx)
      simp only [if_true, hothers]
    · simp only [if_neg (ne_of_mem_of_not_mem hfd hx).symm]
      exact ih hrest hfd

namespace UringBidirectionalRelay.Serves

variable {r : UringBidirectionalRelay} {req : Ticket Request} {c : Completion}
  {m : ExtTreeMap Fd Stats} {closed : Bool} {calls : List Call} {fd : Fd}

lemma adopts_iff (h : r.Serves req c m closed calls) :
    Adopts req c ↔ req.request = acceptRequest r.sockfd ∧ 0 ≤ c.res := by
  refine and_congr_left fun _ => ⟨fun htype => ?_, congrArg Request.type⟩
  cases h with
  | accepted hreq | refused hreq => exact hreq
  | broadcast hreq | stdinEof hreq | stdinError hreq | ticked hreq | idle hreq | received hreq
  | removed hreq =>
    rw [hreq] at htype
    cases htype

/-- The clients afterwards: the one that was accepted, and those that were not closed. -/
lemma mem_iff (h : r.Serves req c m closed calls) :
    fd ∈ m ↔ Adopts req c ∧ fd = c.res ∨ fd ∈ r.clients ∧ fd ∉ closes calls := by
  rw [h.adopts_iff]
  have hnot {q : Request} (hreq : req.request = q) (hq : q.type ≠ .accept) :
      ¬ ((req.request = acceptRequest r.sockfd ∧ 0 ≤ c.res) ∧ fd = c.res) := by
    rintro ⟨⟨haccept, -⟩, -⟩
    rw [← hreq, haccept] at hq
    exact hq rfl
  cases h with
  | broadcast hreq | stdinEof hreq =>
    rw [or_iff_right (hnot hreq OpType.noConfusion), mem_closes]
    exact (and_iff_left (by simp)).symm
  | stdinError hreq | idle hreq =>
    rw [or_iff_right (hnot hreq OpType.noConfusion)]
    exact (and_iff_left List.not_mem_nil).symm
  | accepted hreq hres =>
    rw [ExtTreeMap.mem_insertIfNew, Std.compare_eq_iff_eq, and_iff_right ⟨hreq, hres⟩]
    exact or_congr eq_comm (and_iff_left List.not_mem_nil).symm
  | refused hreq hres =>
    rw [or_iff_right fun hacc => not_le.2 hres hacc.1.2]
    exact (and_iff_left List.not_mem_nil).symm
  | ticked hreq _ hcalls =>
    rw [or_iff_right (hnot hreq OpType.noConfusion), mem_closes, ExtTreeMap.mem_map]
    refine (and_iff_left fun hclose => ?_).symm
    obtain ⟨_, hclose⟩ := hcalls _ hclose
    cases hclose
  | received hreq =>
    rw [or_iff_right (hnot hreq OpType.noConfusion), mem_closes, ExtTreeMap.mem_modify]
    exact (and_iff_left (by simp)).symm
  | removed hreq =>
    rw [or_iff_right (hnot hreq OpType.noConfusion), ExtTreeMap.mem_erase, mem_closes, ne_eq,
      Std.compare_eq_iff_eq, and_comm, List.mem_singleton, Call.close.injEq, eq_comm]

/-- Only a client is closed. -/
lemma of_mem_closes (h : r.Serves req c m closed calls) (hfd : fd ∈ closes calls) :
    fd ∈ r.clients ∧ closes calls = [fd] ∧ ¬ Adopts req c := by
  rw [mem_closes] at hfd
  cases h with
  | broadcast | stdinEof => simp at hfd
  | stdinError | accepted | refused | idle => cases hfd
  | ticked _ _ hcalls =>
    obtain ⟨_, hclose⟩ := hcalls _ hfd
    cases hclose
  | received => simp at hfd
  | removed hreq hclient =>
    obtain rfl : fd = _ := by simpa using hfd
    refine ⟨hclient, rfl, fun hadopts => ?_⟩
    have htype := hadopts.1
    rw [hreq] at htype
    cases htype

lemma nodup_closes (h : r.Serves req c m closed calls) : (closes calls).Nodup := by
  cases hcloses : closes calls with
  | nil => exact List.nodup_nil
  | cons fd rest =>
    have hfd : fd ∈ closes calls := by
      rw [hcloses]
      exact List.mem_cons_self
    rw [← hcloses, (h.of_mem_closes hfd).2.1]
    exact List.nodup_singleton fd

/-- What a client sent is written. -/
lemma writtenBy_eq (h : r.Serves req c m closed calls) (htype : req.request.type = .clientRead) :
    writtenBy calls = c.chunk := by
  cases h with
  | received => simp [writtenBy]
  | removed _ _ hres => rw [Completion.chunk_eq_nil hres]; rfl
  | broadcast hreq | stdinEof hreq | stdinError hreq | accepted hreq | refused hreq | ticked hreq
  | idle hreq =>
    rw [hreq] at htype
    cases htype

/-- What standard input brought is sent to each client once, and else only messages are. -/
lemma ofStdin_sentOn (h : r.Serves req c m closed calls) (hfd : fd ∈ r.clients) :
    ofStdin (sentOn fd calls) = if req.request.type = .stdinRead then c.chunk else [] := by
  have hstdin (hreq : req.request = stdinRequest) : req.request.type = .stdinRead :=
    congrArg Request.type hreq
  have hnot {q : Request} (hreq : req.request = q) (hq : q.type ≠ .stdinRead) :
      req.request.type ≠ .stdinRead := by
    rw [hreq]
    exact hq
  cases h with
  | broadcast hreq =>
    rw [if_pos (hstdin hreq), sentOn_map_send r.clients.nodup_keys (ExtTreeMap.mem_keys.2 hfd)]
    exact List.flatMap_singleton _ _
  | stdinEof hreq hres =>
    rw [if_pos (hstdin hreq), Completion.chunk_eq_nil hres.le]
    exact ofStdin_sentOn_eq_nil (by simp) fd
  | stdinError hreq hres =>
    rw [if_pos (hstdin hreq), Completion.chunk_eq_nil hres.le]
    rfl
  | accepted hreq | refused hreq | idle hreq | received hreq | removed hreq =>
    exact (if_neg (hnot hreq OpType.noConfusion)).symm
  | ticked hreq _ hcalls =>
    rw [if_neg (hnot hreq OpType.noConfusion)]
    refine ofStdin_sentOn_eq_nil (fun x bytes hcall => ?_) fd
    obtain ⟨y, heq⟩ := hcalls _ hcall
    cases heq

/-- A client's counter grows by what it sent, and starts at nothing. -/
lemma totalBytes_eq (h : r.Serves req c m closed calls) {st : Stats} (hst : m[fd]? = some st) :
    fd ∉ r.clients ∧ st.totalBytes = 0 ∨ ∃ st', r.clients[fd]? = some st' ∧
      st.totalBytes = st'.totalBytes +
        UInt64.ofNat (if req.request = clientRequest fd then c.res.toNat else 0) := by
  have hsame {q : Request} (hreq : req.request = q) (hq : q ≠ clientRequest fd)
      {st' : Stats} (hst' : r.clients[fd]? = some st') (htotal : st.totalBytes = st'.totalBytes) :
      ∃ st', r.clients[fd]? = some st' ∧ st.totalBytes = st'.totalBytes +
        UInt64.ofNat (if req.request = clientRequest fd then c.res.toNat else 0) := by
    rw [if_neg (hreq ▸ hq)]
    exact ⟨st', hst', htotal.trans (UInt64.add_zero _).symm⟩
  have hother {q : Request} (hq : q.type ≠ .clientRead) : q ≠ clientRequest fd :=
    fun hsame => hq (congrArg Request.type hsame)
  cases h with
  | broadcast hreq | stdinEof hreq | stdinError hreq | refused hreq | idle hreq =>
    exact .inr (hsame hreq (hother OpType.noConfusion) hst rfl)
  | accepted hreq =>
    rw [ExtTreeMap.getElem?_insertIfNew] at hst
    split_ifs at hst with hnew
    · obtain ⟨hfd, hclient⟩ := hnew
      rw [Std.compare_eq_iff_eq] at hfd
      cases hst
      exact .inl ⟨hfd ▸ hclient, rfl⟩
    · exact .inr (hsame hreq (hother OpType.noConfusion) hst rfl)
  | ticked hreq =>
    rw [ExtTreeMap.getElem?_map, Option.map_eq_some_iff] at hst
    obtain ⟨st', hst', rfl⟩ := hst
    exact .inr (hsame hreq (hother OpType.noConfusion) hst' (Stats.totalBytes_tick st' _))
  | @received x hreq hx =>
    rw [ExtTreeMap.getElem?_modify] at hst
    split_ifs at hst with hfd
    · rw [Std.compare_eq_iff_eq] at hfd
      subst hfd
      rw [Option.map_eq_some_iff] at hst
      obtain ⟨st', hst', rfl⟩ := hst
      refine .inr ⟨st', hst', ?_⟩
      rw [if_pos hreq]
      rfl
    · rw [Std.compare_eq_iff_eq] at hfd
      exact .inr (hsame hreq (fun hq => hfd (congrArg Request.fd hq)) hst rfl)
  | @removed x hreq =>
    rw [ExtTreeMap.getElem?_erase] at hst
    split_ifs at hst with hfd
    rw [Std.compare_eq_iff_eq] at hfd
    exact .inr (hsame hreq (fun hq => hfd (congrArg Request.fd hq)) hst rfl)

end UringBidirectionalRelay.Serves

end ClientServer.Mync
