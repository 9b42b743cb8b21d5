import ClientServer.Mync.ClientStream

/-!
# What the statistics messages account for

When the timer fires, `handle_timer` sends a message to every client from which four gigabytes or
more were received since the last one, and starts its interval anew.  `ReportedStreams` adds to a
server object and its connections how many bytes each message to a connection has named, before
they are printed as gigabytes with two decimals.

`accounted_throughout` says that nothing is named twice or left out: the bytes a client has sent
are those still unread, those of the running interval, and those named by the messages.  The
counters are `uint64_t`, so this is modulo their range.
-/

namespace ClientServer.Mync

open Std (ExtTreeMap)

/-! ## The messages of one report -/

/-- `FOUR_GB`. -/
def fourGB : ℕ := 4000000000

/-- A message to the connection is due at time `now`. -/
def Stats.due (st : Stats) (now : ℕ) : Bool := (st.updateBps now).checkFourGigabytes.1

lemma Stats.due_iff (st : Stats) (now : ℕ) :
    st.due now = true ↔ fourGB ≤ st.intervalBytes.toNat := by
  have hsame : (st.updateBps now).intervalBytes = st.intervalBytes := by
    unfold updateBps
    split_ifs <;> rfl
  unfold due checkFourGigabytes
  rw [hsame]
  split_ifs with hdue
  · exact iff_of_true rfl (UInt64.le_iff_toNat_le.1 hdue)
  · refine iff_of_false (fun h => ?_) fun h => hdue (UInt64.le_iff_toNat_le.2 h)
    cases h

lemma Stats.intervalBytes_tick (st : Stats) (now : ℕ) :
    (st.tick now).intervalBytes = if st.due now then 0 else st.intervalBytes := by
  unfold tick due checkFourGigabytes updateBps
  split_ifs <;> simp_all

namespace Epoll

variable {e e' : Epoll} {r : Report} {a : Answers} {calls : List Call} {fd : Fd} {st : Stats}

lemma sendStats_not_mem_handleStdin (h : e.handleStdin a = .ok (e', calls)) :
    .sendStats fd ∉ calls := by
  unfold handleStdin at h
  split at h
  · split_ifs at h
    · cases h
      simp
    · cases h
      simp
  · cases h
    simp
  · cases h
  · cases h

lemma sendStats_not_mem_handleSocketData (h : e.handleSocketData a = .ok (e', calls)) :
    .sendStats fd ∉ calls := by
  unfold handleSocketData at h
  split at h
  · split_ifs at h
    cases h
    simp
  · cases h
    simp
  · cases h
  · cases h

lemma sendStats_not_mem_handleClientData (h : e.handleClientData r.fd a = .ok (e', calls)) :
    .sendStats fd ∉ calls := by
  unfold handleClientData at h
  split at h
  · by_cases hwritten : a.written
    · rw [if_pos hwritten] at h
      cases h
      simp
    · rw [if_neg hwritten] at h
      cases h
  all_goals
    cases h
    simp

/-- Only the timer sends messages. -/
lemma sendStats_not_mem (h : e.handleReport r a = .ok (e', calls)) (ht : e.dispatch r ≠ .timer) :
    .sendStats fd ∉ calls := by
  unfold handleReport at h
  split at h
  · cases h
    exact List.not_mem_nil
  · cases h
    simp
  · cases h
    simp
  · exact sendStats_not_mem_handleStdin h
  · exact absurd ‹_› ht
  · by_cases hlisten : e.isListen = true
    · rw [if_pos hlisten] at h
      cases h
      exact List.not_mem_nil
    · rw [if_neg hlisten] at h
      exact sendStats_not_mem_handleSocketData h
  · exact sendStats_not_mem_handleClientData h
  · cases h
    exact List.not_mem_nil

/-- The timer sends one message to each client to which one is due. -/
lemma count_sendStats_handleTimer (hst : e.clients[fd]? = some st) (a : Answers) :
    (e.handleTimer a).2.count (.sendStats fd) = if a.expired ∧ st.due a.now then 1 else 0 := by
  unfold handleTimer
  by_cases hexpired : a.expired = true
  swap
  · simp [hexpired]
  rw [if_pos hexpired]
  set due := e.clients.toList.filter fun c => c.2.due a.now with hdue
  have hkeys : (due.map Prod.fst).Nodup := by
    have hsub : (due.map Prod.fst).Sublist (e.clients.toList.map Prod.fst) :=
      List.filter_sublist.map _
    rw [ExtTreeMap.map_fst_toList_eq_keys] at hsub
    exact hsub.nodup e.clients.nodup_keys
  have hmem : fd ∈ due.map Prod.fst ↔ st.due a.now = true := by
    rw [List.mem_map]
    constructor
    · rintro ⟨⟨fd', st'⟩, hc, rfl⟩
      obtain ⟨hin, hp⟩ := List.mem_filter.1 hc
      rw [ExtTreeMap.mem_toList_iff_getElem?_eq_some, hst] at hin
      cases hin
      exact hp
    · intro h
      refine ⟨(fd, st), List.mem_filter.2 ⟨?_, h⟩, rfl⟩
      exact ExtTreeMap.mem_toList_iff_getElem?_eq_some.2 hst
  have hcount : (due.map fun c => Call.sendStats c.1).count (.sendStats fd) =
      (due.map Prod.fst).count fd := by
    rw [← List.count_map_of_injective (due.map Prod.fst) Call.sendStats
      (fun _ _ h => Call.sendStats.inj h), List.map_map]
    rfl
  show (due.map fun c => Call.sendStats c.1).count (.sendStats fd) = _
  rw [hcount]
  by_cases h : st.due a.now = true
  · rw [if_pos ⟨hexpired, h⟩]
    exact List.count_eq_one_of_mem hkeys (hmem.2 h)
  · rw [if_neg fun hboth => h hboth.2]
    exact List.count_eq_zero_of_not_mem fun hin => h (hmem.1 hin)

lemma count_sendStats_handleTimer_of_not_mem (hfd : fd ∉ e.clients) (a : Answers) :
    (e.handleTimer a).2.count (.sendStats fd) = 0 := by
  unfold handleTimer
  split_ifs
  · refine List.count_eq_zero_of_not_mem fun hin => hfd ?_
    obtain ⟨⟨fd', st'⟩, hc, heq⟩ := List.mem_map.1 hin
    cases heq
    have hst := ExtTreeMap.mem_toList_iff_getElem?_eq_some.1 (List.mem_filter.1 hc).1
    rw [ExtTreeMap.mem_iff_isSome_getElem?, hst]
    rfl
  · rfl

end Epoll

/-! ## The messages of a run -/

/-- A server object with its connections, and what the messages to them have said. -/
structure ReportedStreams where
  streams : ClientStreams
  /-- How many bytes each message to a connection has named. -/
  messages : Fd → List ℕ

namespace ReportedStreams

/-- The object just constructed. -/
def new (sock : Fd) (listen showTimerStats : Bool) (epfd wakeup timer : Fd) : ReportedStreams where
  streams := .new sock listen showTimerStats epfd wakeup timer
  messages := fun _ => []

/-- The bytes of the running interval, which a message names. -/
def interval (w : ReportedStreams) (fd : Fd) : ℕ :=
  (w.streams.epoll.clients[fd]?.map (·.intervalBytes.toNat)).getD 0

/-- The state after a step with these calls; a new connection was sent nothing yet. -/
def after (w : ReportedStreams) (s : ClientStreams) (calls : List Call) :
    StreamAct → ReportedStreams
  | .accept fd .. | .push fd .. =>
    { streams := s
      messages := Function.update w.messages fd [] }
  | _ =>
    { streams := s
      messages := fun fd =>
        w.messages fd ++ List.replicate (calls.count (.sendStats fd)) (w.interval fd) }

/-- One step; none where it cannot be taken. -/
def next (w : ReportedStreams) (a : StreamAct) : Option ReportedStreams :=
  (w.streams.outcome a).map fun result => w.after result.1 result.2 a

/-- The bytes that a connection has sent are those named by the messages to it, those of its
running interval, and those unread; and every message named four gigabytes at least. -/
def Accounted (w : ReportedStreams) : Prop :=
  ∀ fd st, w.streams.epoll.Holds fd st →
    UInt64.ofNat (w.messages fd).sum + st.intervalBytes +
        UInt64.ofNat (w.streams.peers fd).unread.length =
      UInt64.ofNat (w.streams.peers fd).sent ∧
    ∀ named ∈ w.messages fd, fourGB ≤ named

/-- No new connection gets a number of the object's own. -/
def NumbersKept (w : ReportedStreams) (a : StreamAct) : Prop := w.streams.NumbersKept a

end ReportedStreams

/-! ## One connection -/

/-- The messages to a connection and its counters. -/
structure Stats.Named (st : Stats) (messages : List ℕ) : Prop where
  total : UInt64.ofNat messages.sum + st.intervalBytes = st.totalBytes
  size : ∀ named ∈ messages, fourGB ≤ named

namespace Stats.Named

variable {st : Stats} {messages : List ℕ}

lemma accepted (ip : String) (now : ℕ) : (Stats.accepted ip now).Named [] := by
  refine ⟨rfl, fun named h => ?_⟩
  cases h

lemma addBytes (h : st.Named messages) (n : ℕ) : (st.addBytes n).Named messages where
  total := by
    show UInt64.ofNat messages.sum + (st.intervalBytes + UInt64.ofNat n) =
      st.totalBytes + UInt64.ofNat n
    rw [← UInt64.add_assoc, h.total]
  size := h.size

/-- What the interval has is named when it ends. -/
lemma tick (h : st.Named messages) (now : ℕ) :
    (st.tick now).Named
      (messages ++ List.replicate (if st.due now then 1 else 0) st.intervalBytes.toNat) := by
  by_cases hdue : st.due now = true
  · rw [if_pos hdue, List.replicate_one]
    refine ⟨?_, fun named hnamed => ?_⟩
    · rw [intervalBytes_tick, if_pos hdue, totalBytes_tick, List.sum_append, List.sum_singleton,
        UInt64.ofNat_add, UInt64.ofNat_toNat, h.total, UInt64.add_zero]
    · rcases List.mem_append.1 hnamed with hold | hnew
      · exact h.size named hold
      · rw [List.mem_singleton.1 hnew]
        exact (st.due_iff now).1 hdue
  · rw [if_neg hdue, List.replicate_zero, List.append_nil]
    refine ⟨?_, h.size⟩
    rw [intervalBytes_tick, if_neg hdue, totalBytes_tick, h.total]

end Stats.Named

/-! ## One step -/

namespace ReportedStreams

/-- Of every connection held, what was received is what was named and what is still to be. -/
def Named (w : ReportedStreams) : Prop :=
  ∀ fd st, w.streams.epoll.Holds fd st → st.Named (w.messages fd)

variable {w w' : ReportedStreams}

lemma interval_of_getElem? {fd : Fd} {st : Stats} (h : w.streams.epoll.clients[fd]? = some st) :
    w.interval fd = st.intervalBytes.toNat := by
  unfold interval
  rw [h]
  rfl

/-- The timer names the intervals that it ends. -/
lemma named_of_timer (hw : w.streams.Accounted) (h : w.Named) (a : Answers) {fd : Fd} {st : Stats}
    (hold : (w.streams.epoll.handleTimer a).1.Holds fd st) :
    st.Named (w.messages fd ++
      List.replicate ((w.streams.epoll.handleTimer a).2.count (.sendStats fd))
        (w.interval fd)) := by
  rcases hold with hclient | hqueue
  · by_cases hexpired : a.expired = true
    · rw [Epoll.handleTimer, if_pos hexpired] at hclient
      have hmap : (w.streams.epoll.clients.map fun _ st => st.tick a.now)[fd]? = some st := hclient
      rw [ExtTreeMap.getElem?_map, Option.map_eq_some_iff] at hmap
      obtain ⟨st₀, hst₀, rfl⟩ := hmap
      rw [Epoll.count_sendStats_handleTimer hst₀, interval_of_getElem? hst₀]
      simp only [hexpired, true_and]
      exact (h fd st₀ (.inl hst₀)).tick a.now
    · rw [Epoll.handleTimer, if_neg hexpired] at hclient ⊢
      simpa using h fd st (.inl hclient)
  · have hqueue₀ : (fd, st) ∈ w.streams.epoll.pendingNewSocks := by
      unfold Epoll.handleTimer at hqueue
      split_ifs at hqueue <;> exact hqueue
    rw [Epoll.count_sendStats_handleTimer_of_not_mem (hw.queued fd st hqueue₀)]
    simpa using h fd st (.inr hqueue₀)

/-- What any other report does to the counters of a connection. -/
lemma named_of_handled (hw : w.streams.Accounted) (h : w.Named) {r : Report} {a : Answers}
    {e : Epoll} {calls : List Call}
    (hr : w.streams.epoll.Own r.fd ∨ r.fd ∈ w.streams.epoll.clients)
    (ht : w.streams.epoll.dispatch r ≠ .timer) (hhandled : w.streams.epoll.Handled r a e calls)
    {fd : Fd} {st : Stats} (hold : e.Holds fd st) :
    st.Named (w.messages fd) := by
  cases hhandled with
  | same => exact h fd st hold
  | flags => exact h fd st hold
  | ticked _ htimer => exact absurd htimer ht
  | drained =>
    rcases hold with hclient | hqueue
    · exact h fd st (getElem?_foldl_insertIfNew _ _ hclient)
    · cases hqueue
  | @counted chunk _ _ _ hdata =>
    have hclient := Epoll.mem_clients_of_dispatch hdata
    rcases hold with hcount | hqueue
    · have halter : (w.streams.epoll.clients.alter r.fd _)[fd]? = some st := hcount
      rw [ExtTreeMap.getElem?_alter] at halter
      split_ifs at halter with hfd
      · obtain rfl := Std.LawfulEqCmp.eq_of_compare hfd
        rw [ExtTreeMap.getElem?_eq_some_getElem hclient, Option.some.injEq] at halter
        rw [← halter]
        exact (h r.fd _ (.inl (ExtTreeMap.getElem?_eq_some_getElem hclient))).addBytes _
      · exact h fd st (.inl halter)
    · exact h fd st (.inr hqueue)
  | hungUp => exact h fd st (hw.holds_of_removeClient hr hold).1
  | emptied => exact h fd st (hw.holds_of_removeClient hr hold).1

lemma named_of_handle (hw : w.streams.Accounted) (h : w.Named) {a : Answers} {s : ClientStreams}
    {calls : List Call} (hstep : w.streams.outcome (.handle a) = some (s, calls)) :
    (w.after s calls (.handle a)).Named := by
  intro fd st hold
  cases hbatch : w.streams.batch with
  | nil => simp [ClientStreams.outcome, hbatch] at hstep
  | cons r rest =>
    simp only [ClientStreams.outcome, hbatch] at hstep
    split_ifs at hstep
    cases hok : w.streams.epoll.handleReport r a with
    | error thrown => simp [hok] at hstep
    | ok result =>
      obtain ⟨e, calls'⟩ := result
      rw [hok] at hstep
      cases hstep
      show st.Named (w.messages fd ++ List.replicate (calls.count (.sendStats fd)) (w.interval fd))
      by_cases ht : w.streams.epoll.dispatch r = .timer
      · have htimer : w.streams.epoll.handleTimer a = (e, calls) := by
          rw [Epoll.handleReport, ht] at hok
          exact Except.ok.inj hok
        have htimed : (w.streams.epoll.handleTimer a).1.Holds fd st := by
          rw [htimer]
          exact hold
        have hnamed := named_of_timer hw h a htimed
        rw [htimer] at hnamed
        exact hnamed
      · have hr := hw.watched r (by simp [hbatch])
        rw [List.count_eq_zero_of_not_mem (Epoll.sendStats_not_mem hok ht), List.replicate_zero,
          List.append_nil]
        exact named_of_handled hw h hr ht (Epoll.handled_of_ok hok) hold

/-- A connection that is taken over starts with nothing named. -/
lemma named_update {e : Epoll} (h : w.Named) {fd : Fd} (ip : String) (now : ℕ)
    (hholds : ∀ fd' st', e.Holds fd' st' →
      w.streams.epoll.Holds fd' st' ∧ fd' ≠ fd ∨ fd' = fd ∧ st' = Stats.accepted ip now)
    {fd' : Fd} {st' : Stats} (hold : e.Holds fd' st') :
    st'.Named (Function.update w.messages fd [] fd') := by
  rcases hholds fd' st' hold with ⟨hold', hne⟩ | ⟨rfl, rfl⟩
  · rw [Function.update_of_ne hne]
    exact h fd' st' hold'
  · rw [Function.update_self]
    exact .accepted ip now

lemma preserves_named :
    Preserves next NumbersKept fun w => w.streams.Accounted ∧ w.Named := by
  rintro w a w' ⟨hw, h⟩ hkept hstep
  obtain ⟨⟨s, calls⟩, hout, rfl⟩ := Option.map_eq_some_iff.1 hstep
  have hs : (w.after s calls a).streams = s := by cases a <;> rfl
  refine ⟨?_, ?_⟩
  · rw [hs]
    exact ClientStreams.preserves_accounted _ _ _ hw hkept
      (ClientStreams.next_eq_some.2 ⟨calls, hout⟩)
  -- a free number is held by nobody
  have hfresh {fd fd' : Fd} {st' : Stats} (hfree : w.streams.Free fd)
      (hold : w.streams.epoll.Holds fd' st') : fd' ≠ fd :=
    fun heq => hfree.2.2 (heq ▸ (hw.held fd' st' hold).2.1)
  cases a with
  | arrive fd bytes =>
    simp only [ClientStreams.outcome] at hout
    split_ifs at hout
    cases hout
    exact fun fd st hold => by simpa [after] using h fd st hold
  | finish fd | reset fd =>
    cases hout
    exact fun fd st hold => by simpa [after] using h fd st hold
  | accept fd ip now added =>
    simp only [ClientStreams.outcome] at hout
    split_ifs at hout with hfree
    cases hout
    refine fun fd' st' hold => named_update h ip now (fun fd'' st'' hold'' => ?_) hold
    rcases ClientStreams.holds_adopt hold'' with hold₀ | hnew
    · exact .inl ⟨hold₀, hfresh hfree.1 hold₀⟩
    · exact .inr hnew
  | push fd ip now =>
    simp only [ClientStreams.outcome] at hout
    split_ifs at hout with hfree
    cases hout
    refine fun fd' st' hold => named_update h ip now (fun fd'' st'' hold'' => ?_) hold
    rcases hold'' with hclient | hqueue
    · exact .inl ⟨.inl hclient, hfresh hfree (.inl hclient)⟩
    · rcases List.mem_append.1 hqueue with hqueue | hnew
      · exact .inl ⟨.inr hqueue, hfresh hfree (.inr hqueue)⟩
      · cases List.mem_singleton.1 hnew
        exact .inr ⟨rfl, rfl⟩
  | wait batch =>
    simp only [ClientStreams.outcome] at hout
    split_ifs at hout
    cases hout
    exact fun fd st hold => by simpa [after] using h fd st hold
  | handle a => exact named_of_handle hw h hout
  | stop =>
    simp only [ClientStreams.outcome] at hout
    split_ifs at hout
    cases hout
    rintro fd st (hclient | hqueue)
    · have hnone : (∅ : ExtTreeMap Fd Stats)[fd]? = some st := hclient
      simp at hnone
    · cases hqueue

lemma accounted_of_named (hw : w.streams.Accounted) (h : w.Named) : w.Accounted := by
  intro fd st hold
  obtain ⟨-, -, hpeer⟩ := hw.held fd st hold
  refine ⟨?_, (h fd st hold).size⟩
  rw [(h fd st hold).total]
  exact hpeer.total

/-- **Every byte is named once.**  Throughout every run of a server object, for each connection it
holds, the bytes the peer has sent are, modulo `2^64`, those named by the messages sent to it, those
of the running interval, and those not yet read; and each message has named four gigabytes or
more. -/
theorem accounted_throughout (sock : Fd) (listen showTimerStats : Bool) (epfd wakeup timer : Fd)
    (acts : List StreamAct)
    (hkept : Along next NumbersKept (new sock listen showTimerStats epfd wakeup timer) acts) :
    Throughout next Accounted (new sock listen showTimerStats epfd wakeup timer) acts := by
  refine preserves_named.throughout (fun _ h => accounted_of_named h.1 h.2) ⟨?_, ?_⟩ hkept
  · exact ClientStreams.Accounted.new sock listen showTimerStats epfd wakeup timer
  · rintro fd st (hclient | hqueue)
    · have hnone : (∅ : ExtTreeMap Fd Stats)[fd]? = some st := hclient
      simp at hnone
    · cases hqueue

/-! ## A client that is sent a message -/

/-- What `epoll_wait` reports where something can be read. -/
def readable : Events := ⟨true, false, false, false⟩

/-- The connection's data is read in these chunks. -/
def reads : List (Chunk bufSize) → List StreamAct
  | [] => []
  | chunk :: chunks =>
    .wait [⟨7, readable⟩] :: .handle ⟨.data chunk, true, true, true, 0⟩ :: reads chunks

/-- The timer fires. -/
def ticks : List StreamAct := [.wait [⟨6, readable⟩], .handle ⟨.again, true, true, true, 1⟩]

/-- A client sends these chunks, which are read, and the timer fires. -/
def served (chunks : List (Chunk bufSize)) : List StreamAct :=
  .accept 7 "" 0 true :: .arrive 7 (chunks.flatMap (·.1)) :: (reads chunks ++ ticks)

/-- At the head of the loop, with a client whose interval has so many bytes and that has sent
these. -/
structure Reading (w : ReportedStreams) (n : ℕ) (rest : Bytes) : Prop where
  loop : w.streams.batch = [] ∧ w.streams.stopped = false ∧
    w.streams.epoll.stdinClosed = false ∧ w.streams.epoll.socketClosed = false
  own : w.streams.epoll.sockfd = 3 ∧ w.streams.epoll.wakeupFd = 5 ∧ w.streams.epoll.timerfd = 6
  client : ∃ st, w.streams.epoll.clients[(7 : Fd)]? = some st ∧ st.intervalBytes = UInt64.ofNat n
  timer : (6 : Fd) ∉ w.streams.epoll.clients
  peer : (w.streams.peers 7).unread = rest ∧ (w.streams.peers 7).fin = false

namespace Reading

variable {n : ℕ} {rest : Bytes} {chunk : Chunk bufSize}

lemma mem_clients (h : w.Reading n rest) : (7 : Fd) ∈ w.streams.epoll.clients := by
  obtain ⟨st, hst, -⟩ := h.client
  rw [ExtTreeMap.mem_iff_isSome_getElem?, hst]
  rfl

lemma dispatch_client (h : w.Reading n rest) :
    w.streams.epoll.dispatch ⟨7, readable⟩ = .clientData := by
  obtain ⟨hsock, hwakeup, htimer⟩ := h.own
  simp [Epoll.dispatch, readable, Events.closing, hsock, hwakeup, htimer, stdinFileno,
    h.mem_clients]

lemma dispatch_timer (h : w.Reading n rest) :
    w.streams.epoll.dispatch ⟨6, readable⟩ = .timer := by
  obtain ⟨-, hwakeup, htimer⟩ := h.own
  simp [Epoll.dispatch, readable, Events.closing, hwakeup, htimer, stdinFileno]

/-- `epoll_wait` reports something that the object watches. -/
lemma next_wait (h : w.Reading n rest) {r : Report} (hr : w.streams.Reports r) :
    w.next (.wait [r]) = some (w.after { w.streams with batch := [r] } [] (.wait [r])) := by
  obtain ⟨hbatch, hstopped, hstdin, hsocket⟩ := h.loop
  have hreturns : w.streams.Returns [r] := by
    refine ⟨hbatch, by simp [hstopped], by simp [hstdin], by simp [hsocket], by simp, by simp, ?_⟩
    intro r' hr'
    rw [List.mem_singleton.1 hr']
    exact hr
  simp only [ReportedStreams.next, ClientStreams.outcome, if_pos hreturns, Option.map_some]

/-- One turn of the loop that reads a chunk. -/
lemma read (h : w.Reading n (chunk.1 ++ rest)) :
    ∃ w₁ w₂, w.next (.wait [⟨7, readable⟩]) = some w₁ ∧
      w₁.next (.handle ⟨.data chunk, true, true, true, 0⟩) = some w₂ ∧
        w₂.Reading (n + chunk.1.length) rest := by
  obtain ⟨hunread, hfin⟩ := h.peer
  obtain ⟨st, hst, hinterval⟩ := h.client
  have hreports : w.streams.Reports ⟨7, readable⟩ := by
    refine ⟨⟨by decide, .inr h.mem_clients⟩, fun _ => ⟨fun _ => rfl, ?_, nofun⟩⟩
    rw [hfin]
    exact nofun
  have hallows : (7 : Fd) ∈ w.streams.epoll.clients →
      (w.streams.peers 7).Allows (.data chunk) := by
    intro _
    show chunk.1 <+: (w.streams.peers 7).unread
    rw [hunread]
    exact List.prefix_append _ _
  obtain ⟨w₁, hw₁⟩ : ∃ w₁, w₁ = w.after { w.streams with batch := [⟨7, readable⟩] } []
    (.wait [⟨7, readable⟩]) := ⟨_, rfl⟩
  have hstreams : w₁.streams = { w.streams with batch := [⟨7, readable⟩] } := by
    rw [hw₁]
    rfl
  refine ⟨w₁, w₁.after
    { epoll := w.streams.epoll.countBytes 7 chunk.1.length 0
      peers := w₁.streams.peersAfter ⟨7, readable⟩ ⟨.data chunk, true, true, true, 0⟩
      opened := w.streams.opened \ ∅
      batch := []
      stopped := w.streams.stopped }
    [.writeStdout (if serverWriteStdout then chunk.1 else [])]
    (.handle ⟨.data chunk, true, true, true, 0⟩), hw₁ ▸ h.next_wait hreports, ?_, ?_⟩
  · simp only [ReportedStreams.next, ClientStreams.outcome, hstreams, if_pos hallows,
      Epoll.handleReport, h.dispatch_client, Epoll.handleClientData, if_true, Option.map_some]
    rfl
  · refine ⟨⟨rfl, h.loop.2⟩, h.own, ⟨st.addBytes chunk.1.length, ?_, ?_⟩, ?_, ?_⟩
    · show (w.streams.epoll.clients.alter (7 : Fd) _)[(7 : Fd)]? = _
      rw [ExtTreeMap.getElem?_alter_self, hst]
      rfl
    · show st.intervalBytes + UInt64.ofNat chunk.1.length = _
      rw [hinterval, ← UInt64.ofNat_add]
    · show (6 : Fd) ∉ w.streams.epoll.clients.alter (7 : Fd) _
      rw [ExtTreeMap.mem_alter, if_neg (by decide)]
      exact h.timer
    · show (w₁.streams.peersAfter _ _ 7).unread = _ ∧ (w₁.streams.peersAfter _ _ 7).fin = _
      rw [ClientStreams.peersAfter, hstreams, if_pos h.mem_clients, Function.update_self,
        h.dispatch_client]
      refine ⟨?_, hfin⟩
      show (w.streams.peers 7).unread.drop chunk.1.length = _
      rw [hunread, List.drop_left]

/-- A timer that fires when the interval has four gigabytes sends a message. -/
lemma not_throughout_ticks (h : w.Reading n rest) (hn : fourGB ≤ (UInt64.ofNat n).toNat) :
    ¬ Throughout next (fun w => w.messages 7 = []) w ticks := by
  obtain ⟨st, hst, hinterval⟩ := h.client
  have hreports : w.streams.Reports ⟨6, readable⟩ :=
    ⟨⟨by decide, .inl (.inr (.inr (.inr h.own.2.2.symm)))⟩, fun hclient => absurd hclient h.timer⟩
  obtain ⟨w₁, hw₁⟩ : ∃ w₁, w₁ = w.after { w.streams with batch := [⟨6, readable⟩] } []
    (.wait [⟨6, readable⟩]) := ⟨_, rfl⟩
  have hstreams : w₁.streams = { w.streams with batch := [⟨6, readable⟩] } := by
    rw [hw₁]
    rfl
  intro hall
  have hrest := hall.2 w₁ (hw₁ ▸ h.next_wait hreports)
  have hnext : ∃ s, w₁.next (.handle ⟨.again, true, true, true, 1⟩) = some (w₁.after s
      (w.streams.epoll.handleTimer ⟨.again, true, true, true, 1⟩).2
      (.handle ⟨.again, true, true, true, 1⟩)) := by
    have hallows : (6 : Fd) ∈ w.streams.epoll.clients → (w.streams.peers 6).Allows .again :=
      fun _ => trivial
    simp only [ReportedStreams.next, ClientStreams.outcome, hstreams, if_pos hallows,
      Epoll.handleReport, h.dispatch_timer, Option.map_some]
    exact ⟨_, rfl⟩
  obtain ⟨s, hs⟩ := hnext
  have hmessages : w₁.messages 7 ++ List.replicate ((w.streams.epoll.handleTimer
      ⟨.again, true, true, true, 1⟩).2.count (.sendStats 7)) (w₁.interval 7) = [] :=
    (hrest.2 _ hs).start
  have hdue : st.due 1 = true := by
    rw [Stats.due_iff, hinterval]
    exact hn
  rw [Epoll.count_sendStats_handleTimer hst, if_pos ⟨rfl, hdue⟩] at hmessages
  exact List.cons_ne_nil _ _ (List.append_eq_nil_iff.1 hmessages).2

/-- All chunks are read, and then the timer fires. -/
lemma not_throughout_reads {chunks : List (Chunk bufSize)} (h : w.Reading n (chunks.flatMap (·.1)))
    (hn : fourGB ≤ (UInt64.ofNat (n + (chunks.flatMap (·.1)).length)).toNat) :
    ¬ Throughout next (fun w => w.messages 7 = []) w (reads chunks ++ ticks) := by
  induction chunks generalizing w n with
  | nil => exact h.not_throughout_ticks hn
  | cons chunk chunks ih =>
    rw [List.flatMap_cons] at h hn
    rw [List.length_append, ← Nat.add_assoc] at hn
    obtain ⟨w₁, w₂, hw₁, hw₂, h₂⟩ := h.read
    exact fun hall => ih h₂ hn ((hall.2 w₁ hw₁).2 w₂ hw₂)

end Reading

/-- The client has connected and sent. -/
lemma reading_arrived (bytes : Bytes) :
    ∃ w₁ w₂, (new 3 true false 4 5 6).next (.accept 7 "" 0 true) = some w₁ ∧
      w₁.next (.arrive 7 bytes) = some w₂ ∧ w₂.Reading 0 bytes := by
  have htimer : (6 : Fd) ∉ (∅ : ExtTreeMap Fd Stats).insertIfNew 7 (Stats.accepted "" 0) := by
    decide
  exact ⟨_, _, rfl, rfl, ⟨rfl, rfl, rfl, rfl⟩, ⟨rfl, rfl, rfl⟩, ⟨_, rfl, rfl⟩, htimer, rfl, rfl⟩

lemma numbersKept_served (chunks : List (Chunk bufSize)) :
    Along next NumbersKept (new 3 true false 4 5 6) (served chunks) := by
  have hreads : ∀ a ∈ reads chunks ++ ticks, ∀ w : ReportedStreams, w.NumbersKept a := by
    induction chunks with
    | nil => simp [reads, ticks, NumbersKept, ClientStreams.NumbersKept]
    | cons chunk chunks ih =>
      intro a ha
      rcases List.mem_cons.1 ha with rfl | ha
      · exact fun _ => trivial
      · rcases List.mem_cons.1 ha with rfl | ha
        · exact fun _ => trivial
        · exact ih a ha
  have hown : ¬ (Epoll.new 3 true false 4 5 6).Own 7 := by decide
  exact fun _ _ => ⟨hown, fun _ _ => ⟨trivial, along_of_mem hreads _⟩⟩

/-- A full buffer. -/
def fullChunk : Chunk bufSize :=
  ⟨List.replicate bufSize 0, by rw [List.length_replicate]; exact ⟨by decide, le_rfl⟩⟩

/-- A client that sends 61036 full buffers, a little more than four gigabytes, is sent a message. -/
theorem accounted_throughout_message :
    Throughout next Accounted (new 3 true false 4 5 6) (served (List.replicate 61036 fullChunk)) ∧
      ¬ Throughout next (fun w => w.messages 7 = []) (new 3 true false 4 5 6)
        (served (List.replicate 61036 fullChunk)) := by
  refine ⟨accounted_throughout 3 true false 4 5 6 _ (numbersKept_served _), fun hall => ?_⟩
  have hlength : ((List.replicate 61036 fullChunk).flatMap (·.1)).length = 61036 * bufSize := by
    rw [List.length_flatMap, List.map_replicate, List.sum_replicate, smul_eq_mul]
    exact congrArg (61036 * ·) List.length_replicate
  obtain ⟨w₁, w₂, hw₁, hw₂, h⟩ := reading_arrived ((List.replicate 61036 fullChunk).flatMap (·.1))
  refine h.not_throughout_reads ?_ ((hall.2 w₁ hw₁).2 w₂ hw₂)
  rw [hlength, UInt64.toNat_ofNat']
  decide

end ReportedStreams

end ClientServer.Mync
