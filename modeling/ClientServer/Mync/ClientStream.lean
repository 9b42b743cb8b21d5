import ClientServer.Library.Runs
import ClientServer.Mync.Epoll

/-!
# What a server has counted when a client leaves

One `Epoll` object of the server, the main one or a worker's, with the connections it holds.
The kernel keeps a receive queue for each connection, to which the peer adds bytes until it
closes; `epoll_wait` reports what the queue and the peer's close amount to at the time of the
call, and the reports are handled one after another while more bytes and closes arrive.

The condition under which nothing is dropped is `NoEarlyRemoval`: `remove_client` runs on a
connection both in the hang-up branch of `exec`, which does not look at the receive queue, and
in `handle_client_data` for every `recv` that returns no bytes, a transient `EAGAIN` included.
-/

namespace ClientServer.Mync

open Std

/-! ## The connections -/

/-- One connection, as the kernel and the peer see it. -/
structure Peer where
  /-- How many bytes the peer has sent. -/
  sent : ℕ
  /-- Those of them that no `recv` has returned yet. -/
  unread : Bytes
  /-- The peer has closed in an orderly way. -/
  fin : Bool
  /-- The connection was reset. -/
  reset : Bool
  /-- A `recv` has reported the end of the stream or an error that is not transient. -/
  ended : Bool

namespace Peer

/-- A connection just accepted. -/
def new : Peer := ⟨0, [], false, false, false⟩

/-- More bytes arrive. -/
def arrive (p : Peer) (bytes : Bytes) : Peer :=
  { p with sent := p.sent + bytes.length, unread := p.unread ++ bytes }

/-- What a `recv` of this connection may answer. -/
def Allows (p : Peer) : ReadAnswer → Prop
  | .data chunk => chunk.1 <+: p.unread
  | .eof => p.unread = [] ∧ p.fin ∧ ¬ p.reset
  | .again => True
  | .error => p.reset

instance (p : Peer) : DecidablePred p.Allows := fun
  | .data chunk => inferInstanceAs (Decidable (chunk.1 <+: p.unread))
  | .eof => inferInstanceAs (Decidable (_ ∧ _))
  | .again => inferInstanceAs (Decidable True)
  | .error => inferInstanceAs (Decidable (_ = true))

/-- The connection after the branch of `exec` that a report on it takes.  The branches of
standard input, the timer and the eventfd read from it too if its descriptor has their number. -/
def after (p : Peer) : Epoll.Branch → ReadAnswer → Peer
  | .clientData, .data chunk => { p with unread := p.unread.drop chunk.1.length }
  | .clientData, .eof => { p with ended := true }
  | .clientData, .error => { p with ended := true }
  | .stdin, .data chunk => { p with unread := p.unread.drop chunk.1.length }
  | .timer, _ => { p with unread := p.unread.drop 8 }
  | .wakeup, _ => { p with unread := p.unread.drop 8 }
  | _, _ => p

/-- The bits `epoll_wait` reports for the connection: `EPOLLIN` while bytes are queued, a
hang-up once the peer has closed, and a hang-up or an error only then or after a reset. -/
def Shows (p : Peer) (evs : Events) : Prop :=
  (p.unread ≠ [] → evs.epollin) ∧ (p.fin → evs.epollrdhup ∨ evs.epollhup) ∧
    (evs.closing → p.fin ∨ p.reset)

instance (p : Peer) (evs : Events) : Decidable (p.Shows evs) :=
  inferInstanceAs (Decidable (_ ∧ _ ∧ _))

end Peer

/-! ## The steps -/

/-- An `Epoll` object with the connections of the process. -/
structure ClientStreams where
  epoll : Epoll
  peers : Fd → Peer
  /-- The descriptors that are open. -/
  opened : Finset Fd
  /-- The reports of the last `epoll_wait` that are still to be handled. -/
  batch : List Report
  stopped : Bool

/-- What can happen next. -/
inductive StreamAct
  | arrive (fd : Fd) (bytes : Bytes)
  | finish (fd : Fd)
  | reset (fd : Fd)
  /-- A turn of `accept_connections` that keeps the connection. -/
  | accept (fd : Fd) (ip : String) (now : ℕ) (added : Bool)
  /-- `push_external_socket`, run by another thread. -/
  | push (fd : Fd) (ip : String) (now : ℕ)
  | wait (batch : List Report)
  | handle (answers : Answers)
  /-- `exec` has returned and `fullstop` runs. -/
  | stop

namespace ClientStreams

/-- The object just constructed. -/
def new (sock : Fd) (listen showTimerStats : Bool) (epfd wakeup timer : Fd) : ClientStreams where
  epoll := Epoll.new sock listen showTimerStats epfd wakeup timer
  peers := fun _ => Peer.new
  opened := {stdinFileno, sock, epfd, wakeup, timer}
  batch := []
  stopped := false

/-- The kernel may hand out this number. -/
def Free (w : ClientStreams) (fd : Fd) : Prop := ¬ w.stopped ∧ 0 ≤ fd ∧ fd ∉ w.opened

instance (w : ClientStreams) (fd : Fd) : Decidable (w.Free fd) :=
  inferInstanceAs (Decidable (_ ∧ _ ∧ _))

/-- A report that `epoll_wait` may return now. -/
def Reports (w : ClientStreams) (r : Report) : Prop :=
  w.epoll.Watches r.fd ∧ (r.fd ∈ w.epoll.clients → (w.peers r.fd).Shows r.events)

instance (w : ClientStreams) : DecidablePred w.Reports :=
  fun _ => inferInstanceAs (Decidable (_ ∧ _))

/-- A batch that `epoll_wait` may return now, at the head of the loop of `exec`. -/
def Returns (w : ClientStreams) (batch : List Report) : Prop :=
  w.batch = [] ∧ ¬ w.stopped ∧ ¬ w.epoll.stdinClosed ∧ ¬ w.epoll.socketClosed ∧
    batch.length ≤ 4 ∧ (batch.map (·.fd)).Nodup ∧ ∀ r ∈ batch, w.Reports r

instance (w : ClientStreams) (batch : List Report) : Decidable (w.Returns batch) :=
  inferInstanceAs (Decidable (_ ∧ _ ∧ _ ∧ _ ∧ _ ∧ _ ∧ _))

/-- The connections after a report was handled. -/
def peersAfter (w : ClientStreams) (r : Report) (a : Answers) : Fd → Peer :=
  if r.fd ∈ w.epoll.clients then
    Function.update w.peers r.fd ((w.peers r.fd).after (w.epoll.dispatch r) a.read)
  else w.peers

/-- One step, with the calls it makes; none where it cannot be taken.  A thrown exception ends
the process. -/
def outcome (w : ClientStreams) : StreamAct → Option (ClientStreams × List Call)
  | .arrive fd bytes =>
    if (w.peers fd).fin ∨ (w.peers fd).reset then none
    else some ({ w with peers := Function.update w.peers fd ((w.peers fd).arrive bytes) }, [])
  | .finish fd =>
    some ({ w with peers := Function.update w.peers fd { w.peers fd with fin := true } }, [])
  | .reset fd =>
    some ({ w with peers := Function.update w.peers fd { w.peers fd with reset := true } }, [])
  | .accept fd ip now added =>
    if w.Free fd ∧ w.epoll.isListen then
      let (e, calls) := w.epoll.adopt fd (Stats.accepted ip now) added
      some ({ w with
        epoll := e
        peers := Function.update w.peers fd Peer.new
        opened := insert fd w.opened \ (closes calls).toFinset }, calls)
    else none
  | .push fd ip now =>
    if w.Free fd then
      some ({ w with
        epoll := w.epoll.pushExternalSocket fd (Stats.accepted ip now)
        peers := Function.update w.peers fd Peer.new
        opened := insert fd w.opened }, [])
    else none
  | .wait batch => if w.Returns batch then some ({ w with batch := batch }, []) else none
  | .handle a =>
    match w.batch with
    | [] => none
    | r :: rest =>
      if r.fd ∈ w.epoll.clients → (w.peers r.fd).Allows a.read then
        match w.epoll.handleReport r a with
        | .ok (e, calls) =>
          some ({ w with
            epoll := e
            peers := w.peersAfter r a
            opened := w.opened \ (closes calls).toFinset
            batch := rest }, calls)
        | .error _ => none
      else none
  | .stop =>
    if w.batch = [] ∧ ¬ w.stopped then
      let (e, calls) := w.epoll.fullstop
      some ({ w with
        epoll := e
        opened := w.opened \ (closes calls).toFinset
        stopped := true }, calls)
    else none

/-- The state after one step. -/
def next (w : ClientStreams) (a : StreamAct) : Option ClientStreams := (w.outcome a).map (·.1)

end ClientStreams

/-! ## What the object holds -/

/-- The object has this connection in `clients` or in its queue. -/
def Epoll.Holds (e : Epoll) (fd : Fd) (st : Stats) : Prop :=
  e.clients[fd]? = some st ∨ (fd, st) ∈ e.pendingNewSocks

lemma getElem?_foldl_insertIfNew {fd : Fd} {st : Stats} (queue : List (Fd × Stats))
    (m : ExtTreeMap Fd Stats)
    (h : (queue.foldl (fun m c => m.insertIfNew c.1 c.2) m)[fd]? = some st) :
    m[fd]? = some st ∨ (fd, st) ∈ queue := by
  induction queue generalizing m with
  | nil => exact Or.inl h
  | cons c queue ih =>
    rcases ih _ h with hm | hqueue
    · rw [ExtTreeMap.getElem?_insertIfNew] at hm
      split_ifs at hm with hnew
      · have hfd : c.1 = fd := Std.LawfulEqCmp.eq_of_compare hnew.1
        rw [Option.some.injEq] at hm
        exact Or.inr (by simp [← hfd, ← hm])
      · exact Or.inl hm
    · exact Or.inr (List.mem_cons_of_mem c hqueue)

lemma mem_foldl_insertIfNew {fd : Fd} (queue : List (Fd × Stats)) {m : ExtTreeMap Fd Stats}
    (h : fd ∈ m) : fd ∈ queue.foldl (fun m c => m.insertIfNew c.1 c.2) m := by
  induction queue generalizing m with
  | nil => exact h
  | cons c queue ih => exact ih (ExtTreeMap.mem_insertIfNew.mpr (Or.inr h))

namespace Epoll.Handled

variable {e e' : Epoll} {r : Report} {a : Answers} {calls : List Call} {fd : Fd}

lemma own (h : e.Handled r a e' calls) : e'.Own = e.Own := by
  cases h <;> rfl

lemma mem_clients (h : e.Handled r a e' calls) (hfd : fd ∈ e.clients) (hne : fd ≠ r.fd) :
    fd ∈ e'.clients := by
  have herase : fd ∈ e.clients.erase r.fd := by
    rw [ExtTreeMap.mem_erase]
    exact ⟨by simpa using hne.symm, hfd⟩
  cases h with
  | same => exact hfd
  | flags => exact hfd
  | ticked => exact ExtTreeMap.mem_map.mpr hfd
  | drained => exact mem_foldl_insertIfNew _ hfd
  | counted =>
    show fd ∈ e.clients.alter r.fd _
    rw [ExtTreeMap.mem_alter, if_neg (by simpa using hne.symm)]
    exact hfd
  | hungUp => exact herase
  | emptied => exact herase

/-- A queued connection stays outside `clients` until the queue is drained. -/
lemma queued (h : e.Handled r a e' calls)
    (hq : ∀ fd st, (fd, st) ∈ e.pendingNewSocks → fd ∉ e.clients) (st : Stats)
    (hqueue : (fd, st) ∈ e'.pendingNewSocks) : fd ∉ e'.clients := by
  cases h with
  | same => exact hq fd st hqueue
  | flags => exact hq fd st hqueue
  | ticked => exact fun hfd => hq fd st hqueue (ExtTreeMap.mem_map.mp hfd)
  | drained => cases hqueue
  | counted _ _ hdata =>
    show fd ∉ e.clients.alter r.fd _
    have hne : r.fd ≠ fd := fun hr => hq fd st hqueue (hr ▸ mem_clients_of_dispatch hdata)
    rw [ExtTreeMap.mem_alter, if_neg (by simpa using hne)]
    exact hq fd st hqueue
  | hungUp => exact fun hfd => hq fd st hqueue (ExtTreeMap.mem_of_mem_erase hfd)
  | emptied => exact fun hfd => hq fd st hqueue (ExtTreeMap.mem_of_mem_erase hfd)

/-- A connection is removed by the hang-up branch, or by the data branch when its `recv` returned
no bytes. -/
lemma epollDel_mem_iff (h : e.Handled r a e' calls) :
    .epollDel fd ∈ calls ↔ fd = r.fd ∧ (e.dispatch r = .removeClient ∨
      e.dispatch r = .clientData ∧ ∀ chunk, a.read ≠ .data chunk) := by
  cases h with
  | same hcalls hremove hdata => simp [(hcalls fd).2, hremove, hdata]
  | flags hcalls hends => rcases hends with hd | hd | hd <;> simp [(hcalls fd).2, hd]
  | ticked hcalls htimer => simp [(hcalls fd).2, htimer]
  | drained hwakeup => simp [drain, hwakeup]
  | counted hcalls hread hdata => simp [(hcalls fd).2, hdata, hread]
  | hungUp hremove => simp [removeClient, hremove]
  | emptied hread hdata =>
    refine ⟨fun hdel => ⟨by simpa [removeClient] using hdel, Or.inr ⟨hdata, hread⟩⟩, fun h => ?_⟩
    simp [removeClient, h.1]

end Epoll.Handled

/-- The counters of a connection and its receive queue account for every byte the peer has
sent; `total_bytes` is a `uint64_t`, so this is modulo its range. -/
structure Peer.Accounts (p : Peer) (st : Stats) : Prop where
  notEnded : p.ended = false
  total : st.totalBytes + UInt64.ofNat p.unread.length = UInt64.ofNat p.sent

namespace Peer.Accounts

variable {p : Peer} {st : Stats}

lemma new (ip : String) (now : ℕ) : Peer.new.Accounts (Stats.accepted ip now) := ⟨rfl, rfl⟩

lemma arrive (h : p.Accounts st) (bytes : Bytes) : (p.arrive bytes).Accounts st := by
  refine ⟨h.notEnded, ?_⟩
  show st.totalBytes + UInt64.ofNat (p.unread ++ bytes).length = UInt64.ofNat (p.sent + _)
  rw [List.length_append, UInt64.ofNat_add, UInt64.ofNat_add, ← UInt64.add_assoc, h.total]

/-- A `recv` moves bytes from the queue into the counter. -/
lemma receive (h : p.Accounts st) {chunk : Chunk bufSize} (hread : chunk.1 <+: p.unread) :
    (p.after .clientData (.data chunk)).Accounts (st.addBytes chunk.1.length) := by
  refine ⟨h.notEnded, ?_⟩
  show st.totalBytes + UInt64.ofNat chunk.1.length +
    UInt64.ofNat (p.unread.drop chunk.1.length).length = UInt64.ofNat p.sent
  have hlen : chunk.1.length + (p.unread.drop chunk.1.length).length = p.unread.length := by
    rw [List.length_drop]
    have := hread.length_le
    omega
  rw [UInt64.add_assoc, ← UInt64.ofNat_add, hlen, h.total]

end Peer.Accounts

namespace ClientStreams

/-- Every connection held is open, has none of the object's own numbers and is accounted for;
queued connections are not in `clients` yet; the reports to be handled are on different
descriptors of the epoll set. -/
structure Accounted (w : ClientStreams) : Prop where
  held : ∀ fd st, w.epoll.Holds fd st →
    ¬ w.epoll.Own fd ∧ fd ∈ w.opened ∧ (w.peers fd).Accounts st
  queued : ∀ fd st, (fd, st) ∈ w.epoll.pendingNewSocks → fd ∉ w.epoll.clients
  nodup : (w.batch.map (·.fd)).Nodup
  watched : ∀ r ∈ w.batch, w.epoll.Own r.fd ∨ r.fd ∈ w.epoll.clients

lemma Accounted.new (sock : Fd) (listen showTimerStats : Bool) (epfd wakeup timer : Fd) :
    (ClientStreams.new sock listen showTimerStats epfd wakeup timer).Accounted where
  held := by
    rintro fd st (hclient | hqueue)
    · have hnone : (∅ : ExtTreeMap Fd Stats)[fd]? = some st := hclient
      simp at hnone
    · cases hqueue
  queued := by
    intro fd st hqueue
    cases hqueue
  nodup := List.nodup_nil
  watched := by
    intro r hr
    cases hr

namespace Accounted

variable {w : ClientStreams}

lemma of_mem_clients (hw : w.Accounted) {fd : Fd} (hfd : fd ∈ w.epoll.clients) :
    ¬ w.epoll.Own fd ∧ fd ∈ w.opened ∧ (w.peers fd).ended = false := by
  obtain ⟨hown, hopen, hpeer⟩ :=
    hw.held fd w.epoll.clients[fd] (Or.inl (ExtTreeMap.getElem?_eq_some_getElem hfd))
  exact ⟨hown, hopen, hpeer.notEnded⟩

/-- A change of one connection that keeps its account. -/
lemma update_peer (hw : w.Accounted) (fd : Fd) (p : Peer)
    (hp : ∀ st, w.epoll.Holds fd st → (w.peers fd).Accounts st → p.Accounts st) :
    ({ w with peers := Function.update w.peers fd p } : ClientStreams).Accounted where
  held := by
    intro fd' st hold
    obtain ⟨hown, hopen, hpeer⟩ := hw.held fd' st hold
    refine ⟨hown, hopen, ?_⟩
    show (Function.update w.peers fd p fd').Accounts st
    by_cases hfd : fd' = fd
    · subst hfd
      rw [Function.update_self]
      exact hp st hold hpeer
    · rw [Function.update_of_ne hfd]
      exact hpeer
  queued := hw.queued
  nodup := hw.nodup
  watched := hw.watched

/-- A connection with a number nobody has is taken over, in `clients` or in the queue. -/
lemma take (hw : w.Accounted) {fd : Fd} (hfree : w.Free fd) (hown : ¬ w.epoll.Own fd) {st : Stats}
    (hst : Peer.new.Accounts st) {e : Epoll} (howns : e.Own = w.epoll.Own)
    (hholds : ∀ fd' st', e.Holds fd' st' → w.epoll.Holds fd' st' ∨ fd' = fd ∧ st' = st)
    (hqueued : ∀ fd' st', (fd', st') ∈ e.pendingNewSocks → fd' ∉ e.clients)
    (hclients : ∀ fd' ∈ w.epoll.clients, fd' ∈ e.clients) :
    ({ w with
      epoll := e
      peers := Function.update w.peers fd Peer.new
      opened := insert fd w.opened } : ClientStreams).Accounted where
  held := by
    intro fd' st' hold
    show ¬ e.Own fd' ∧ fd' ∈ insert fd w.opened ∧
      (Function.update w.peers fd Peer.new fd').Accounts st'
    rw [howns]
    rcases hholds fd' st' hold with hold | ⟨rfl, rfl⟩
    · obtain ⟨hown', hopen, hpeer⟩ := hw.held fd' st' hold
      have hne : fd' ≠ fd := fun h => hfree.2.2 (h ▸ hopen)
      rw [Function.update_of_ne hne]
      exact ⟨hown', Finset.mem_insert_of_mem hopen, hpeer⟩
    · rw [Function.update_self]
      exact ⟨hown, Finset.mem_insert_self _ _, hst⟩
  queued := hqueued
  nodup := hw.nodup
  watched := by
    intro r hr
    rw [howns]
    exact (hw.watched r hr).imp_right (hclients r.fd)

/-- Only the data branch changes what the kernel has queued for a connection held. -/
lemma peersAfter_eq (hw : w.Accounted) {r : Report} (a : Answers)
    (hdata : w.epoll.dispatch r ≠ .clientData) : w.peersAfter r a = w.peers := by
  unfold peersAfter
  by_cases hclient : r.fd ∈ w.epoll.clients
  · rw [if_pos hclient]
    have hd := Epoll.dispatch_of_not_own (hw.of_mem_clients hclient).1
    have hafter : (w.peers r.fd).after (w.epoll.dispatch r) a.read = w.peers r.fd := by
      rw [hd] at hdata ⊢
      split_ifs at hdata ⊢
      · rfl
      · exact absurd rfl hdata
      · rfl
    rw [hafter, Function.update_eq_self]
  · rw [if_neg hclient]

/-- A removal leaves the other connections as they are, and none with the number removed. -/
lemma holds_of_removeClient (hw : w.Accounted) {r : Report}
    (hr : w.epoll.Own r.fd ∨ r.fd ∈ w.epoll.clients) {fd : Fd} {st : Stats}
    (hold : (w.epoll.removeClient r.fd).1.Holds fd st) : w.epoll.Holds fd st ∧ fd ≠ r.fd := by
  rcases hold with hclient | hqueue
  · have herase : (w.epoll.clients.erase r.fd)[fd]? = some st := hclient
    rw [ExtTreeMap.getElem?_erase] at herase
    split_ifs at herase with hfd
    exact ⟨Or.inl herase, fun h => hfd (by simp [h])⟩
  · refine ⟨Or.inr hqueue, fun hfd => ?_⟩
    subst hfd
    rcases hr with hown | hclient
    · exact (hw.held r.fd st (Or.inr hqueue)).1 hown
    · exact hw.queued r.fd st hqueue hclient

/-- Counting the bytes of a `recv` keeps the account of its connection, and of the others. -/
lemma held_of_countBytes (hw : w.Accounted) {r : Report} {a : Answers} {chunk : Chunk bufSize}
    {now : ℕ} (hallows : r.fd ∈ w.epoll.clients → (w.peers r.fd).Allows a.read)
    (hread : a.read = .data chunk) (hdata : w.epoll.dispatch r = .clientData) {fd : Fd}
    {st : Stats} (hold : (w.epoll.countBytes r.fd chunk.1.length now).Holds fd st) :
    ¬ w.epoll.Own fd ∧ fd ∈ w.opened ∧ (w.peersAfter r a fd).Accounts st := by
  have hclient := Epoll.mem_clients_of_dispatch hdata
  have hprefix := hallows hclient
  rw [hread] at hprefix
  unfold peersAfter
  rw [if_pos hclient, hdata, hread]
  by_cases hfd : fd = r.fd
  · subst hfd
    rw [Function.update_self]
    rcases hold with hcount | hqueue
    · have halter : (w.epoll.clients.alter r.fd _)[r.fd]? = some st := hcount
      rw [ExtTreeMap.getElem?_alter_self, Option.some.injEq,
        ExtTreeMap.getElem?_eq_some_getElem hclient] at halter
      obtain ⟨hown, hopen, hpeer⟩ := hw.held r.fd w.epoll.clients[r.fd]
        (Or.inl (ExtTreeMap.getElem?_eq_some_getElem hclient))
      refine ⟨hown, hopen, ?_⟩
      rw [← halter]
      exact hpeer.receive hprefix
    · exact absurd hclient (hw.queued r.fd st hqueue)
  · rw [Function.update_of_ne hfd]
    rcases hold with hcount | hqueue
    · have halter : (w.epoll.clients.alter r.fd _)[fd]? = some st := hcount
      rw [ExtTreeMap.getElem?_alter, if_neg (by simpa using Ne.symm hfd)] at halter
      exact hw.held fd st (Or.inl halter)
    · exact hw.held fd st (Or.inr hqueue)

/-- A tick of the timer changes no account. -/
lemma held_of_tick (hw : w.Accounted) {now : ℕ} {fd : Fd} {st : Stats}
    (hold : Epoll.Holds { w.epoll with clients := w.epoll.clients.map fun _ st => st.tick now }
      fd st) :
    ¬ w.epoll.Own fd ∧ fd ∈ w.opened ∧ (w.peers fd).Accounts st := by
  rcases hold with hclient | hqueue
  · have hmap : (w.epoll.clients.map fun _ st => st.tick now)[fd]? = some st := hclient
    rw [ExtTreeMap.getElem?_map, Option.map_eq_some_iff] at hmap
    obtain ⟨st₀, hst₀, rfl⟩ := hmap
    obtain ⟨hown, hopen, hpeer⟩ := hw.held fd st₀ (Or.inl hst₀)
    refine ⟨hown, hopen, hpeer.notEnded, ?_⟩
    rw [Stats.totalBytes_tick]
    exact hpeer.total
  · exact hw.held fd st (Or.inr hqueue)

/-- What a report does to the connection it names and to the others. -/
lemma held_of_handled (hw : w.Accounted) {r : Report} {a : Answers} {e : Epoll}
    {calls : List Call} (hr : w.epoll.Own r.fd ∨ r.fd ∈ w.epoll.clients)
    (hallows : r.fd ∈ w.epoll.clients → (w.peers r.fd).Allows a.read)
    (h : w.epoll.Handled r a e calls) {fd : Fd} {st : Stats} (hold : e.Holds fd st) :
    ¬ w.epoll.Own fd ∧ (fd ∈ w.opened ∧ .close fd ∉ calls) ∧
      (w.peersAfter r a fd).Accounts st := by
  cases h with
  | same hcalls _ hdata =>
    rw [hw.peersAfter_eq a hdata]
    obtain ⟨hown, hopen, hpeer⟩ := hw.held fd st hold
    exact ⟨hown, ⟨hopen, (hcalls fd).1⟩, hpeer⟩
  | flags hcalls hends =>
    rw [hw.peersAfter_eq a (by rcases hends with hd | hd | hd <;> simp [hd])]
    obtain ⟨hown, hopen, hpeer⟩ := hw.held fd st hold
    exact ⟨hown, ⟨hopen, (hcalls fd).1⟩, hpeer⟩
  | ticked hcalls htimer =>
    rw [hw.peersAfter_eq a (by simp [htimer])]
    obtain ⟨hown, hopen, hpeer⟩ := hw.held_of_tick hold
    exact ⟨hown, ⟨hopen, (hcalls fd).1⟩, hpeer⟩
  | drained hwakeup =>
    rw [hw.peersAfter_eq a (by simp [hwakeup])]
    have hold' : w.epoll.Holds fd st := by
      rcases hold with hclient | hqueue
      · exact getElem?_foldl_insertIfNew _ _ hclient
      · cases hqueue
    obtain ⟨hown, hopen, hpeer⟩ := hw.held fd st hold'
    exact ⟨hown, ⟨hopen, by simp [Epoll.drain]⟩, hpeer⟩
  | counted hcalls hread hdata =>
    obtain ⟨hown, hopen, hpeer⟩ := hw.held_of_countBytes hallows hread hdata hold
    exact ⟨hown, ⟨hopen, (hcalls fd).1⟩, hpeer⟩
  | hungUp hremove =>
    rw [hw.peersAfter_eq a (by simp [hremove])]
    obtain ⟨hold', hne⟩ := hw.holds_of_removeClient hr hold
    obtain ⟨hown, hopen, hpeer⟩ := hw.held fd st hold'
    exact ⟨hown, ⟨hopen, by simp [Epoll.removeClient, hne]⟩, hpeer⟩
  | emptied _ hdata =>
    obtain ⟨hold', hne⟩ := hw.holds_of_removeClient hr hold
    obtain ⟨hown, hopen, hpeer⟩ := hw.held fd st hold'
    unfold peersAfter
    rw [if_pos (Epoll.mem_clients_of_dispatch hdata), Function.update_of_ne hne]
    exact ⟨hown, ⟨hopen, by simp [Epoll.removeClient, hne]⟩, hpeer⟩

end Accounted

/-! ## The condition -/

/-- No new connection gets the number of the object's standard input, socket, eventfd or timer.
The kernel gives one of these only after `remove_client` has closed it. -/
def NumbersKept (w : ClientStreams) : StreamAct → Prop
  | .accept fd .. => ¬ w.epoll.Own fd
  | .push fd .. => ¬ w.epoll.Own fd
  | _ => True

/-- No hang-up or error report is handled for a connection in `clients`, no `recv` on one
answers `EAGAIN`, and the object is not stopped while it has any. -/
def NoEarlyRemoval (w : ClientStreams) : StreamAct → Prop
  | .handle a => ∀ r rest, w.batch = r :: rest →
      (w.epoll.dispatch r = .removeClient → r.fd ∉ w.epoll.clients) ∧
        (w.epoll.dispatch r = .clientData → a.read ≠ .again)
  | .stop => ∀ fd, fd ∉ w.epoll.clients
  | _ => True

/-- The step calls `remove_client` only for connections on which a `recv` has reported the end
of the stream or an error that is not transient. -/
def RemovesEnded (w : ClientStreams) (a : StreamAct) : Prop :=
  ∀ w' calls, w.outcome a = some (w', calls) →
    ∀ fd ∈ w.epoll.clients, .epollDel fd ∈ calls → (w'.peers fd).ended

/-- For every connection the step removes whose peer has closed in an orderly way, the counter
`total_bytes` has all the bytes the peer sent. -/
def CountsAll (w : ClientStreams) (a : StreamAct) : Prop :=
  ∀ w' calls, w.outcome a = some (w', calls) →
    ∀ fd st, w.epoll.clients[fd]? = some st → .epollDel fd ∈ calls →
      (w.peers fd).fin → ¬ (w.peers fd).reset → st.totalBytes = UInt64.ofNat (w.peers fd).sent

/-- The step drops nothing. -/
def DropsNothing (w : ClientStreams) (a : StreamAct) : Prop := w.RemovesEnded a ∧ w.CountsAll a

/-! ## One step -/

section Step

variable {w w' : ClientStreams}

lemma outcome_handle {a : Answers} {calls : List Call}
    (h : w.outcome (.handle a) = some (w', calls)) :
    ∃ r rest e, w.batch = r :: rest ∧
      (r.fd ∈ w.epoll.clients → (w.peers r.fd).Allows a.read) ∧ w.epoll.Handled r a e calls ∧
      w' = { w with
        epoll := e
        peers := w.peersAfter r a
        opened := w.opened \ (closes calls).toFinset
        batch := rest } := by
  cases hbatch : w.batch with
  | nil => simp [outcome, hbatch] at h
  | cons r rest =>
    simp only [outcome, hbatch] at h
    split_ifs at h with hallows
    cases hok : w.epoll.handleReport r a with
    | error t => simp [hok] at h
    | ok result =>
      rw [hok] at h
      cases h
      exact ⟨r, rest, result.1, rfl, hallows, Epoll.handled_of_ok hok, rfl⟩

lemma holds_adopt {e : Epoll} {fd fd' : Fd} {st st' : Stats} {added : Bool}
    (h : (e.adopt fd st added).1.Holds fd' st') : e.Holds fd' st' ∨ fd' = fd ∧ st' = st := by
  unfold Epoll.adopt at h
  by_cases hadded : added
  · rw [if_pos hadded] at h
    rcases h with hclient | hqueue
    · have hinsert : (e.clients.insertIfNew fd st)[fd']? = some st' := hclient
      rw [ExtTreeMap.getElem?_insertIfNew] at hinsert
      split_ifs at hinsert with hnew
      · rw [Option.some.injEq] at hinsert
        exact Or.inr ⟨(Std.LawfulEqCmp.eq_of_compare hnew.1).symm, hinsert.symm⟩
      · exact Or.inl (Or.inl hinsert)
    · exact Or.inl (Or.inr hqueue)
  · rw [if_neg hadded] at h
    exact Or.inl h

lemma next_eq_some {a : StreamAct} :
    w.next a = some w' ↔ ∃ calls, w.outcome a = some (w', calls) :=
  map_fst_eq_some

/-- Handling a report keeps every connection accounted for. -/
lemma Accounted.handle (hw : w.Accounted) {a : Answers} {calls : List Call}
    (h : w.outcome (.handle a) = some (w', calls)) : w'.Accounted := by
  obtain ⟨r, rest, e, hbatch, hallows, hhandled, rfl⟩ := outcome_handle h
  have hr := hw.watched r (by simp [hbatch])
  have hnodup := hw.nodup
  rw [hbatch, List.map_cons, List.nodup_cons] at hnodup
  refine ⟨fun fd st hold => ?_, fun fd st hqueue => ?_, hnodup.2, fun r' hr' => ?_⟩
  · obtain ⟨hown, ⟨hopen, hclose⟩, hpeer⟩ := hw.held_of_handled hr hallows hhandled hold
    refine ⟨?_, by simpa using ⟨hopen, hclose⟩, hpeer⟩
    show ¬ e.Own fd
    rw [hhandled.own]
    exact hown
  · exact hhandled.queued hw.queued st hqueue
  · have hne : r'.fd ≠ r.fd := fun h => hnodup.1 (h ▸ List.mem_map_of_mem hr')
    show e.Own r'.fd ∨ r'.fd ∈ e.clients
    rw [hhandled.own]
    exact (hw.watched r' (by simp [hbatch, hr'])).imp_right
      fun hclient => hhandled.mem_clients hclient hne

/-- Nothing is held after `fullstop`. -/
lemma Accounted.stop (hbatch : w.batch = []) (opened : Finset Fd) :
    ({ w with epoll := w.epoll.fullstop.1, opened := opened, stopped := true } :
      ClientStreams).Accounted := by
  refine ⟨?_, ?_, by simp [hbatch], by simp [hbatch]⟩
  · rintro fd st (hclient | hqueue)
    · have hnone : (∅ : ExtTreeMap Fd Stats)[fd]? = some st := hclient
      simp at hnone
    · cases hqueue
  · intro fd st hqueue
    cases hqueue

/-- A new connection stays here, or is closed again if `add_fd` fails. -/
lemma Accounted.adopt (hw : w.Accounted) {fd : Fd} (hfree : w.Free fd)
    (hown : ¬ w.epoll.Own fd) (ip : String) (now : ℕ) (added : Bool) :
    ({ w with
      epoll := (w.epoll.adopt fd (Stats.accepted ip now) added).1
      peers := Function.update w.peers fd Peer.new
      opened := insert fd w.opened \
        (closes (w.epoll.adopt fd (Stats.accepted ip now) added).2).toFinset } :
      ClientStreams).Accounted := by
  cases added with
  | true =>
    have hnone : insert fd w.opened \ (closes [.epollAdd fd]).toFinset = insert fd w.opened :=
      Finset.sdiff_empty
    have htake := hw.take hfree hown (Peer.Accounts.new ip now)
      (e := (w.epoll.adopt fd (Stats.accepted ip now) true).1) rfl
      (fun fd' st' => holds_adopt)
      (fun fd' st' hqueue hclient => ?_)
      (fun fd' hfd' => ExtTreeMap.mem_insertIfNew.mpr (Or.inr hfd'))
    · rw [← hnone] at htake
      exact htake
    · rcases ExtTreeMap.mem_insertIfNew.mp hclient with hnew | hold
      · have hfd : fd = fd' := Std.LawfulEqCmp.eq_of_compare hnew
        exact hfree.2.2 (hfd ▸ (hw.held fd' st' (Or.inr hqueue)).2.1)
      · exact hw.queued fd' st' hqueue hold
  | false =>
    have hsame : insert fd w.opened \ (closes [.epollAdd fd, .close fd]).toFinset = w.opened := by
      have hclosed : (closes [.epollAdd fd, .close fd]).toFinset = {fd} := rfl
      rw [hclosed, Finset.sdiff_singleton_eq_erase, Finset.erase_insert hfree.2.2]
    have hupdate := hw.update_peer fd Peer.new
      fun st hold _ => absurd (hw.held fd st hold).2.1 hfree.2.2
    rw [← hsame] at hupdate
    exact hupdate

/-- A new connection waits in the queue. -/
lemma Accounted.push (hw : w.Accounted) {fd : Fd} (hfree : w.Free fd)
    (hown : ¬ w.epoll.Own fd) (ip : String) (now : ℕ) :
    ({ w with
      epoll := w.epoll.pushExternalSocket fd (Stats.accepted ip now)
      peers := Function.update w.peers fd Peer.new
      opened := insert fd w.opened } : ClientStreams).Accounted := by
  refine hw.take hfree hown (Peer.Accounts.new ip now) rfl ?_ ?_ fun fd' hfd' => hfd'
  · rintro fd' st' (hclient | hqueue)
    · exact Or.inl (Or.inl hclient)
    · rcases List.mem_append.mp hqueue with hqueue | hnew
      · exact Or.inl (Or.inr hqueue)
      · cases List.mem_singleton.mp hnew
        exact Or.inr ⟨rfl, rfl⟩
  · intro fd' st' hqueue
    rcases List.mem_append.mp hqueue with hqueue | hnew
    · exact hw.queued fd' st' hqueue
    · cases List.mem_singleton.mp hnew
      exact fun hclient => hfree.2.2 (hw.of_mem_clients hclient).2.1

/-- Every step keeps every connection accounted for, as long as the numbers are kept apart. -/
lemma preserves_accounted : Preserves next NumbersKept Accounted := by
  intro w a w' hw hkept hstep
  obtain ⟨calls, h⟩ := next_eq_some.mp hstep
  cases a with
  | arrive fd bytes =>
    simp only [outcome] at h
    split_ifs at h
    cases h
    exact hw.update_peer fd _ fun st _ hst => hst.arrive bytes
  | finish fd =>
    cases h
    exact hw.update_peer fd _ fun st _ hst => ⟨hst.notEnded, hst.total⟩
  | reset fd =>
    cases h
    exact hw.update_peer fd _ fun st _ hst => ⟨hst.notEnded, hst.total⟩
  | accept fd ip now added =>
    simp only [outcome] at h
    split_ifs at h with hfree
    cases h
    exact hw.adopt hfree.1 hkept ip now added
  | push fd ip now =>
    simp only [outcome] at h
    split_ifs at h with hfree
    cases h
    exact hw.push hfree hkept ip now
  | wait batch =>
    simp only [outcome] at h
    split_ifs at h with hreturns
    cases h
    exact ⟨hw.held, hw.queued, hreturns.2.2.2.2.2.1,
      fun r hr => (hreturns.2.2.2.2.2.2 r hr).1.2⟩
  | handle answers => exact hw.handle h
  | stop =>
    simp only [outcome] at h
    split_ifs at h with hstop
    cases h
    exact Accounted.stop hstop.1 _

/-- A report that removes only connections that have ended removes none early. -/
lemma RemovesEnded.noEarlyRemoval_handle (hw : w.Accounted) {a : Answers} {calls : List Call}
    (h : w.outcome (.handle a) = some (w', calls)) (hended : w.RemovesEnded (.handle a)) :
    w.NoEarlyRemoval (.handle a) := by
  obtain ⟨r, rest, e, hbatch, -, hhandled, hw'⟩ := outcome_handle h
  have hpeers : w'.peers = w.peersAfter r a := by rw [hw']
  intro r' rest' hbatch'
  obtain ⟨rfl, rfl⟩ : r = r' ∧ rest = rest' := by simpa [hbatch] using hbatch'
  refine ⟨fun hremove hclient => ?_, fun hdata hagain => ?_⟩
  · have hdel := hhandled.epollDel_mem_iff.mpr ⟨rfl, Or.inl hremove⟩
    have hpeer := hended w' calls h r.fd hclient hdel
    rw [hpeers, hw.peersAfter_eq a (by simp [hremove]), (hw.of_mem_clients hclient).2.2] at hpeer
    cases hpeer
  · have hclient := Epoll.mem_clients_of_dispatch hdata
    have hdel := hhandled.epollDel_mem_iff.mpr ⟨rfl, Or.inr ⟨hdata, by simp [hagain]⟩⟩
    have hpeer := hended w' calls h r.fd hclient hdel
    have hsame : w.peersAfter r a r.fd = w.peers r.fd := by
      unfold peersAfter
      rw [if_pos hclient, Function.update_self, hdata, hagain]
      rfl
    rw [hpeers, hsame, (hw.of_mem_clients hclient).2.2] at hpeer
    cases hpeer

/-- A report that removes no connection early removes one in the data branch, after the end of
the stream or a reset. -/
lemma NoEarlyRemoval.read_of_epollDel {a : Answers} (hkept : w.NoEarlyRemoval (.handle a))
    {r : Report} {rest : List Report} (hbatch : w.batch = r :: rest) {e : Epoll}
    {calls : List Call} (hhandled : w.epoll.Handled r a e calls) {fd : Fd}
    (hclient : fd ∈ w.epoll.clients) (hdel : .epollDel fd ∈ calls) :
    fd = r.fd ∧ w.epoll.dispatch r = .clientData ∧ (a.read = .eof ∨ a.read = .error) := by
  obtain ⟨hremove, hdata⟩ := hkept r rest hbatch
  obtain ⟨rfl, hhung | ⟨hd, hread⟩⟩ := hhandled.epollDel_mem_iff.mp hdel
  · exact absurd hclient (hremove hhung)
  · refine ⟨rfl, hd, ?_⟩
    cases hans : a.read with
    | data chunk => exact absurd hans (hread chunk)
    | eof => exact Or.inl rfl
    | again => exact absurd hans (hdata hd)
    | error => exact Or.inr rfl

lemma NoEarlyRemoval.removesEnded {a : Answers} {calls : List Call}
    (hkept : w.NoEarlyRemoval (.handle a)) (h : w.outcome (.handle a) = some (w', calls)) :
    w.RemovesEnded (.handle a) := by
  obtain ⟨r, rest, e, hbatch, -, hhandled, hw'⟩ := outcome_handle h
  have hpeers : w'.peers = w.peersAfter r a := by rw [hw']
  intro w₁ calls₁ h₁ fd hclient hdel
  rw [h] at h₁
  cases h₁
  obtain ⟨rfl, hd, hread⟩ := hkept.read_of_epollDel hbatch hhandled hclient hdel
  rw [hpeers]
  unfold peersAfter
  rw [if_pos hclient, Function.update_self, hd]
  rcases hread with hread | hread <;> rw [hread] <;> rfl

lemma NoEarlyRemoval.countsAll (hw : w.Accounted) {a : Answers} {calls : List Call}
    (hkept : w.NoEarlyRemoval (.handle a)) (h : w.outcome (.handle a) = some (w', calls)) :
    w.CountsAll (.handle a) := by
  obtain ⟨r, rest, e, hbatch, hallows, hhandled, -⟩ := outcome_handle h
  intro w₁ calls₁ h₁ fd st hst hdel hfin hreset
  rw [h] at h₁
  cases h₁
  have hclient : fd ∈ w.epoll.clients := by
    rw [ExtTreeMap.mem_iff_isSome_getElem?, hst]
    rfl
  obtain ⟨rfl, -, hread⟩ := hkept.read_of_epollDel hbatch hhandled hclient hdel
  have hallowed := hallows hclient
  rcases hread with hread | hread <;> rw [hread] at hallowed
  -- at the end of the stream nothing is left in the receive queue
  · obtain ⟨-, -, hpeer⟩ := hw.held r.fd st (Or.inl hst)
    have htotal := hpeer.total
    rw [hallowed.1] at htotal
    rw [← htotal]
    exact (UInt64.add_zero _).symm
  · exact absurd hallowed hreset

/-- Handling a report drops nothing exactly when it removes no connection early. -/
lemma dropsNothing_handle_iff (hw : w.Accounted) {a : Answers} {calls : List Call}
    (h : w.outcome (.handle a) = some (w', calls)) :
    w.DropsNothing (.handle a) ↔ w.NoEarlyRemoval (.handle a) := by
  constructor
  · rintro ⟨hended, -⟩
    exact hended.noEarlyRemoval_handle hw h
  · intro hkept
    exact ⟨hkept.removesEnded h, hkept.countsAll hw h⟩

lemma dropsNothing_stop_iff (hw : w.Accounted) {calls : List Call}
    (h : w.outcome .stop = some (w', calls)) :
    w.DropsNothing .stop ↔ w.NoEarlyRemoval .stop := by
  have hall := h
  simp only [outcome] at h
  split_ifs at h with hstop
  cases h
  constructor
  · rintro ⟨hended, -⟩ fd hclient
    have hpeer := hended _ _ hall fd hclient (Epoll.epollDel_mem_fullstop.mpr hclient)
    rw [(hw.of_mem_clients hclient).2.2] at hpeer
    cases hpeer
  · intro hempty
    refine ⟨fun _ _ _ fd hclient => absurd hclient (hempty fd), fun _ _ _ fd st hst => ?_⟩
    exact absurd (ExtTreeMap.mem_iff_isSome_getElem?.mpr (by simp [hst])) (hempty fd)

/-- The step lemma: a step drops nothing exactly when it removes no connection early. -/
lemma dropsNothing_iff_noEarlyRemoval (hw : w.Accounted) {a : StreamAct}
    (hstep : w.next a = some w') : w.DropsNothing a ↔ w.NoEarlyRemoval a := by
  obtain ⟨calls, h⟩ := next_eq_some.mp hstep
  -- the other steps remove nothing
  have hquiet (hdel : ∀ fd, Call.epollDel fd ∉ calls) : w.DropsNothing a := by
    constructor
    · intro w₁ calls₁ h₁ fd _ hfd
      rw [h] at h₁
      cases h₁
      exact absurd hfd (hdel fd)
    · intro w₁ calls₁ h₁ fd _ _ hfd
      rw [h] at h₁
      cases h₁
      exact absurd hfd (hdel fd)
  cases a with
  | handle a => exact dropsNothing_handle_iff hw h
  | stop => exact dropsNothing_stop_iff hw h
  | accept fd ip now added =>
    refine iff_of_true (hquiet fun fd' => ?_) trivial
    simp only [outcome] at h
    split_ifs at h
    cases h
    unfold Epoll.adopt
    split_ifs <;> simp
  | arrive fd bytes | push fd ip now | wait batch =>
    refine iff_of_true (hquiet fun fd' => ?_) trivial
    simp only [outcome] at h
    split_ifs at h
    cases h
    exact List.not_mem_nil
  | finish fd | reset fd =>
    refine iff_of_true (hquiet fun fd' => ?_) trivial
    cases h
    exact List.not_mem_nil

end Step

/-! ## Every run -/

/-- **A server drops nothing along exactly the runs without an early removal.**  The object is
any one the server builds, with any arrivals, reports and answers; the connections keep clear of
the object's own descriptor numbers. -/
theorem dropsNothing_along_iff (sock : Fd) (listen showTimerStats : Bool) (epfd wakeup timer : Fd)
    (as : List StreamAct) :
    Along next (fun w a => w.NumbersKept a ∧ w.DropsNothing a)
        (new sock listen showTimerStats epfd wakeup timer) as ↔
      Along next (fun w a => w.NumbersKept a ∧ w.NoEarlyRemoval a)
        (new sock listen showTimerStats epfd wakeup timer) as :=
  preserves_accounted.along_iff (fun _ _ _ hw hstep => dropsNothing_iff_noEarlyRemoval hw hstep)
    (Accounted.new sock listen showTimerStats epfd wakeup timer)

/-- A client connects, sends three bytes and closes; one report shows the bytes and the close,
and the connection is removed with none of them counted. -/
theorem not_dropsNothing_unread_at_hangup :
    ¬ Along next DropsNothing (new 3 true false 4 5 6)
      [.accept 7 "" 0 true, .arrive 7 [1, 2, 3], .finish 7, .wait [⟨7, ⟨true, false, true, false⟩⟩],
        .handle ⟨.again, true, true, true, 0⟩] := by
  intro h
  obtain ⟨-, h⟩ := h _ rfl
  obtain ⟨-, h⟩ := h _ rfl
  obtain ⟨-, h⟩ := h _ rfl
  obtain ⟨-, h⟩ := h _ rfl
  obtain ⟨⟨-, hcounts⟩, -⟩ := h _ rfl
  have htotal := hcounts _ _ rfl 7 _ rfl (by decide) rfl (by decide)
  exact absurd htotal (by decide)

end ClientStreams

end ClientServer.Mync
