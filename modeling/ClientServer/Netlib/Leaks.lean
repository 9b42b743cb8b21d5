import ClientServer.Netlib.Client
import ClientServer.Netlib.Server

/-!
# Which sockets the single-thread classes leave open

`disconnect()` of a client and `stop()` of a server close what the object knows of: its `socket_`,
and the clients of a server.  `DisconnectCloses` and `StopCloses` say of a state that if the call
finished there, no socket that the object has opened would stay open; `epfd_` is not counted, which
the constructor opens and the destructor closes.  For either class this holds throughout exactly
along the histories in which no `connect()` or `start()` opens a socket that the object does not
come to know of: the descriptor `0`, which the first test takes for a failure, and a socket that
`start_handle` refuses or fails to register.
-/

namespace ClientServer.Netlib

open Mync (Fd Events Report ReadAnswer)

/-! ## The client -/

namespace SinglethreadClient

/-- If `disconnect()` finished here, no socket would stay open. -/
def DisconnectCloses (c : SinglethreadClient) : Prop := c.joined.epoll.fds.opened = ∅

/-- A `connect()` that opens no socket it does not come to know of: the descriptor is not `0`, and
where it is connected there is no other and `add_fd` succeeds. -/
def LeaksNothing (conf : ClientConfig) (c : SinglethreadClient) : ClientAct → Prop
  | .connect a => a.socket ≠ 0 ∧ (a.Connects conf → c.epoll.socket ≤ 0 ∧ a.added = true)
  | _ => True

/-- The socket is `-1` or open. -/
def Holds (c : SinglethreadClient) : Prop :=
  c.epoll.socket = -1 ∨ 0 < c.epoll.socket ∧ c.epoll.socket ∈ c.epoll.fds.opened

variable {conf : ClientConfig} {a : ConnectAnswers} {t : FdTable} {c c' : SinglethreadClient}

lemma disconnectCloses_iff :
    c.DisconnectCloses ↔ ∀ fd ∈ c.epoll.fds.opened, fd = c.epoll.socket := by
  show c.epoll.fds.opened.erase c.epoll.socket = ∅ ↔ _
  rw [Finset.eq_empty_iff_forall_notMem]
  refine forall_congr' fun fd => ?_
  rw [Finset.mem_erase]
  tauto

/-- Only the descriptor `0` stays open on a failing exit. -/
lemma opened_of_not_connects (hfits : a.Fits t) (hzero : a.socket ≠ 0) (h : ¬ a.Connects conf) :
    ∃ text t', createSocketConnect conf a t = (.error text, t') ∧ t'.opened = t.opened := by
  have hclosed : ((t.acquire a.socket).close a.socket).opened = t.opened :=
    FdTable.opened_close_acquire (FdTable.not_mem_opened_of_neg_one_or_fresh hfits.1)
  unfold createSocketConnect
  rw [if_neg hzero]
  split_ifs with hhostParsed hbound hparsed hconnected
  · exact ⟨_, _, rfl, hclosed⟩
  · exact ⟨_, _, rfl, hclosed⟩
  · refine absurd ⟨hzero, fun hhost => ?_, hparsed, hconnected⟩ h
    exact ⟨not_not.1 fun hbad => hhostParsed ⟨hhost, hbad⟩,
      not_not.1 fun hbad => hbound ⟨hhost, hbad⟩⟩
  · exact ⟨_, _, rfl, hclosed⟩
  · exact ⟨_, _, rfl, hclosed⟩

/-- What a `connect()` opens, and which socket the object has behind it. -/
lemma connect_cases (conf : ClientConfig) (hfits : a.Fits c.epoll.fds) :
    (a.socket ≠ 0 ∧ ¬ a.Connects conf ∧
      (c.connect conf a).1.epoll.fds.opened = c.epoll.fds.opened ∧
      (c.connect conf a).1.epoll.socket = c.epoll.socket) ∨
    ((a.socket = 0 ∨ a.Connects conf ∧ (0 < c.epoll.socket ∨ a.added = false)) ∧
      (c.connect conf a).1.epoll.fds.opened = (c.epoll.fds.acquire a.socket).opened ∧
      (c.connect conf a).1.epoll.socket = c.epoll.socket) ∨
    (a.Connects conf ∧ c.epoll.socket ≤ 0 ∧ a.added = true ∧
      (c.connect conf a).1.epoll.fds.opened = (c.epoll.fds.acquire a.socket).opened ∧
      (c.connect conf a).1.epoll.socket = a.socket) := by
  by_cases hzero : a.socket = 0
  · refine .inr (.inl ⟨.inl hzero, ?_⟩)
    have hfailed : createSocketConnect conf a c.epoll.fds =
        (.error "socket failed", c.epoll.fds.acquire a.socket) := if_pos hzero
    rw [connect, hfailed]
    exact ⟨rfl, rfl⟩
  by_cases hconn : a.Connects conf
  swap
  · obtain ⟨text, fds, heq, hopened⟩ := opened_of_not_connects hfits hzero hconn
    refine .inl ⟨hzero, hconn, ?_⟩
    rw [connect, heq]
    exact ⟨hopened, rfl⟩
  by_cases hbusy : 0 < c.epoll.socket
  · refine .inr (.inl ⟨.inr ⟨hconn, .inl hbusy⟩, ?_⟩)
    rw [connect_of_busy hconn hbusy]
    exact ⟨rfl, rfl⟩
  cases hadded : a.added with
  | false =>
    refine .inr (.inl ⟨.inr ⟨hconn, .inr rfl⟩, ?_⟩)
    rw [connect_of_not_added hconn (not_lt.1 hbusy) hadded]
    exact ⟨rfl, rfl⟩
  | true =>
    refine .inr (.inr ⟨hconn, not_lt.1 hbusy, rfl, ?_⟩)
    rw [connect_of_added hconn (not_lt.1 hbusy) hadded]
    exact ⟨rfl, rfl⟩

lemma Holds.connect (h : c.Holds) (hfits : a.Fits c.epoll.fds) : (c.connect conf a).1.Holds := by
  have hsub : c.epoll.fds.opened ⊆ (c.epoll.fds.acquire a.socket).opened := fun x hx =>
    FdTable.mem_opened_acquire.2 (.inr hx)
  rcases connect_cases conf hfits with ⟨-, -, hopened, hsocket⟩ |
    ⟨-, hopened, hsocket⟩ | ⟨hconn, -, -, hopened, hsocket⟩
  · rw [Holds, hopened, hsocket]
    exact h
  · rw [Holds, hopened, hsocket]
    exact h.imp_right fun hs => ⟨hs.1, hsub hs.2⟩
  · rw [Holds, hopened, hsocket]
    have hpos := (fresh_of_connects hfits hconn).1
    exact .inr ⟨hpos, FdTable.mem_opened_acquire.2 (.inl ⟨rfl, hpos.le⟩)⟩

lemma disconnectCloses_dropSocket (h : c.DisconnectCloses) :
    DisconnectCloses { c with epoll := ClientLightEpoll.dropSocket c.epoll } := by
  rw [disconnectCloses_iff] at h ⊢
  intro fd hfd
  obtain ⟨hne, hopened⟩ := Finset.mem_erase.1 hfd
  exact absurd (h fd hopened) hne

/-- What a report changes of the descriptors and the socket. -/
lemma descriptors_of_handle {r : Report} {b : ReadAnswer} (h : c.handle r b = .ok c') :
    c'.epoll.fds = c.epoll.fds ∧ c'.epoll.socket = c.epoll.socket ∨
      c'.epoll.fds = c.epoll.fds.close c.epoll.socket ∧ c'.epoll.socket = -1 := by
  obtain rfl | ⟨-, ⟨-, rfl⟩ | ⟨-, -, rfl⟩⟩ := handle_cases h
  · exact .inl ⟨rfl, rfl⟩
  · exact .inr ⟨rfl, rfl⟩
  · exact .inr ⟨rfl, rfl⟩

lemma preserves_disconnectCloses :
    Preserves (next conf) (LeaksNothing conf) fun c => c.Holds ∧ c.DisconnectCloses := by
  rintro c act c' ⟨hholds, hleak⟩ hC hstep
  cases act with
  | connect a =>
    simp only [next] at hstep
    split_ifs at hstep with hc
    cases hstep
    refine ⟨hholds.connect hc.2, ?_⟩
    rw [disconnectCloses_iff] at hleak ⊢
    rcases connect_cases conf hc.2 with ⟨-, -, hopened, hsocket⟩ |
      ⟨hbad, -, -⟩ | ⟨hconn, hfree, -, hopened, hsocket⟩
    · rw [hopened, hsocket]
      exact hleak
    · rcases hbad with hzero | ⟨hconn, hbusy | hadded⟩
      · exact absurd hzero hC.1
      · exact absurd hbusy (not_lt.2 (hC.2 hconn).1)
      · exact absurd ((hC.2 hconn).2.symm.trans hadded) (by decide)
    · rw [hopened, hsocket]
      intro fd hfd
      rcases FdTable.mem_opened_acquire.1 hfd with ⟨rfl, -⟩ | hold
      · rfl
      · -- before this one no socket was open
        have hsame := hleak fd hold
        have hpos : 0 < c.epoll.socket := by
          obtain hnone | ⟨hpos, -⟩ := hholds
          · rw [hsame, hnone] at hold
            exact absurd hold (FdTable.not_mem_opened_of_neg (by decide))
          · exact hpos
        exact absurd hpos (not_lt.2 hfree)
  | disconnect =>
    simp only [next] at hstep
    split_ifs at hstep
    cases hstep
    exact ⟨hholds, hleak⟩
  | joined =>
    simp only [next] at hstep
    split_ifs at hstep
    cases hstep
    exact ⟨.inl rfl, disconnectCloses_dropSocket hleak⟩
  | testStop i =>
    obtain ⟨e, he, rfl⟩ := Option.map_eq_some_iff.1 hstep
    obtain ⟨-, rfl⟩ := LightEpoll.of_testStop he
    exact ⟨hholds, hleak⟩
  | epollWait i reports =>
    obtain ⟨e, he, rfl⟩ := Option.map_eq_some_iff.1 hstep
    obtain ⟨-, -, rfl⟩ := LightEpoll.of_epollWait he
    exact ⟨hholds, hleak⟩
  | handle i b =>
    obtain ⟨r, rest, d, -, hd, rfl⟩ := next_handle hstep
    rw [disconnectCloses_iff] at hleak
    rcases descriptors_of_handle hd with ⟨hfds, hsocket⟩ | ⟨hfds, hsocket⟩
    · refine ⟨?_, disconnectCloses_iff.2 ?_⟩
      · show d.epoll.socket = -1 ∨ 0 < d.epoll.socket ∧ d.epoll.socket ∈ d.epoll.fds.opened
        rw [hfds, hsocket]
        exact hholds
      · show ∀ fd ∈ d.epoll.fds.opened, fd = d.epoll.socket
        rw [hfds, hsocket]
        exact hleak
    · refine ⟨.inl hsocket, disconnectCloses_iff.2 ?_⟩
      show ∀ fd ∈ d.epoll.fds.opened, fd = d.epoll.socket
      rw [hfds]
      intro fd hfd
      obtain ⟨hne, hopened⟩ := Finset.mem_erase.1 hfd
      exact absurd (hleak fd hopened) hne

/-- A `connect()` that opens a socket the object does not come to know of leaks it. -/
lemma leaksNothing_of_disconnectCloses {act : ClientAct} (hholds : c.Holds)
    (hstep : c.next conf act = some c') (hleak : c'.DisconnectCloses) :
    c.LeaksNothing conf act := by
  cases act with
  | connect a =>
    simp only [next] at hstep
    split_ifs at hstep with hc
    cases hstep
    rw [disconnectCloses_iff] at hleak
    have hfresh := FdTable.not_mem_opened_of_neg_one_or_fresh hc.2.1
    rcases connect_cases conf hc.2 with ⟨hzero, hconn, -, -⟩ |
      ⟨hbad, hopened, hsocket⟩ | ⟨hconn, hfree, hadded, -, -⟩
    · exact ⟨hzero, fun h => absurd h hconn⟩
    · -- the new socket would have to be the old one
      have hnonneg : 0 ≤ a.socket := by
        rcases hbad with hzero | ⟨hconn, -⟩
        · exact hzero.ge
        · exact (fresh_of_connects hc.2 hconn).1.le
      have hsame := hleak a.socket (by
        rw [hopened]
        exact FdTable.mem_opened_acquire.2 (.inl ⟨rfl, hnonneg⟩))
      rw [hsocket] at hsame
      obtain hnone | ⟨-, hopen⟩ := hholds
      · rw [hsame, hnone] at hnonneg
        exact absurd hnonneg (by decide)
      · rw [← hsame] at hopen
        exact absurd hopen hfresh
    · exact ⟨(fresh_of_connects hc.2 hconn).1.ne', fun _ => ⟨hfree, hadded⟩⟩
  | disconnect | joined | testStop i | epollWait i reports | handle i b => trivial

/-- **What a client leaves open.**  Along a history of calls, reports and results a `disconnect()`
would close every socket the client has opened, throughout, exactly if no `socket` returns `0` and
every connection is made while there is none and is registered. -/
theorem disconnectCloses_throughout_iff (conf : ClientConfig) (acts : List ClientAct) :
    Throughout (next conf) DisconnectCloses new acts ↔
      Along (next conf) (LeaksNothing conf) new acts :=
  preserves_disconnectCloses.throughout_iff (fun _ h => h.2)
    (fun _ _ _ h hstep hleak => leaksNothing_of_disconnectCloses h.1 hstep hleak) ⟨.inl rfl, rfl⟩

end SinglethreadClient

/-! ## The server -/

namespace ServerLightEpoll

variable {e e' : ServerLightEpoll}

lemma mem_opened_foldl_removeClient {fds : List Fd} {x : Fd} :
    x ∈ (fds.foldl removeClient e).fds.opened ↔ x ∈ e.fds.opened ∧ x ∉ fds := by
  induction fds generalizing e with
  | nil => simp
  | cons fd fds ih =>
    rw [List.foldl_cons, ih]
    show x ∈ e.fds.opened.erase fd ∧ x ∉ fds ↔ _
    rw [Finset.mem_erase, List.mem_cons]
    tauto

lemma mem_clients_foldl_removeClient {fds : List Fd} {x : Fd} :
    x ∈ (fds.foldl removeClient e).clients ↔ x ∈ e.clients ∧ x ∉ fds := by
  induction fds generalizing e with
  | nil => simp
  | cons fd fds ih =>
    rw [List.foldl_cons, ih]
    show x ∈ e.clients.erase fd ∧ x ∉ fds ↔ _
    rw [Std.ExtTreeMap.mem_erase, List.mem_cons, Std.LawfulEqCmp.compare_eq_iff_eq.ne]
    tauto

/-- What `handle_accept` opens is in `clients`, and open. -/
lemma opened_of_handleAccept {answers : List AcceptAnswer}
    (hfit : AcceptsFit e.fds answers) (h : e.handleAccept answers = some (.ok e')) :
    (∀ x ∈ e'.fds.opened, x ∈ e.fds.opened ∨ x ∈ e'.clients) ∧
      ((∀ x ∈ e.clients, x ∈ e.fds.opened) → ∀ x ∈ e'.clients, x ∈ e'.fds.opened) := by
  induction answers generalizing e with
  | nil => cases h
  | cons answer answers ih =>
    cases answer with
    | accepted fd ip totalBytes =>
      obtain ⟨hopened, hclients⟩ := ih (e := e.addClient fd ip totalBytes) hfit.2 h
      refine ⟨fun x hx => ?_, fun hold => hclients fun x hx => ?_⟩
      · rcases hopened x hx with hx | hx
        · rcases FdTable.mem_opened_acquire.1 hx with ⟨rfl, -⟩ | hx
          · exact .inr (mem_clients_of_handleAccept (e := e.addClient x ip totalBytes) h
              Std.ExtTreeMap.mem_insertIfNew_self)
          · exact .inl hx
        · exact .inr hx
      · refine FdTable.mem_opened_acquire.2 ?_
        rcases Std.ExtTreeMap.mem_insertIfNew.1 hx with heq | hx
        · exact .inl ⟨(Std.LawfulEqCmp.eq_of_compare heq).symm, hfit.1.1⟩
        · exact .inr (hold x hx)
    | again =>
      cases h
      exact ⟨fun _ hx => .inl hx, id⟩
    | error strerror => cases h

end ServerLightEpoll

namespace SinglethreadServer

/-- If `stop()` finished here, no socket would stay open. -/
def StopCloses (s : SinglethreadServer) : Prop := s.joined.epoll.fds.opened = ∅

/-- A `start()` that opens no socket it does not come to know of: the descriptor is not `0`, and
where it listens there is no other and `add_fd` succeeds, or it has the number of a socket that was
closed. -/
def LeaksNothing (s : SinglethreadServer) (a : StartAnswers) : Prop :=
  a.socket ≠ 0 ∧ (a.ReachesListen → a.listens = true →
    s.epoll.socket ≤ 0 ∧ a.added = true ∨ a.socket = s.epoll.socket)

/-- The clients are open. -/
def ClientsOpen (s : SinglethreadServer) : Prop := ∀ fd ∈ s.epoll.clients, fd ∈ s.epoll.fds.opened

variable {conf : ServerConfig} {a : StartAnswers} {t : FdTable} {s s' : SinglethreadServer}

lemma mem_opened_joined {x : Fd} : x ∈ s.joined.epoll.fds.opened ↔
    x ∈ s.epoll.fds.opened ∧ ¬ (0 < s.epoll.socket ∧ x = s.epoll.socket) ∧
      x ∉ s.epoll.clients := by
  have hkeys : x ∈ s.epoll.clients.keys ↔ x ∈ s.epoll.clients := Std.ExtTreeMap.mem_keys
  show x ∈ (ServerLightEpoll.finishStop s.epoll).fds.opened ↔ _
  rw [ServerLightEpoll.finishStop, ServerLightEpoll.mem_opened_foldl_removeClient, hkeys]
  show x ∈ (if 0 < s.epoll.socket then s.epoll.fds.close s.epoll.socket else
    s.epoll.fds : FdTable).opened ∧ _ ↔ _
  split_ifs with hpos
  · rw [FdTable.opened_close, Finset.mem_erase]
    tauto
  · tauto

lemma stopCloses_iff : s.StopCloses ↔ ∀ fd ∈ s.epoll.fds.opened,
    fd ∈ s.epoll.clients ∨ 0 < s.epoll.socket ∧ fd = s.epoll.socket := by
  rw [StopCloses, Finset.eq_empty_iff_forall_notMem]
  refine forall_congr' fun fd => ?_
  rw [mem_opened_joined]
  tauto

/-- Where `start_handle` throws, the socket that it was given stays. -/
lemma epoll_start_of_thrown {sock : Fd} {text : Option String} {fds : FdTable} {thrown : String}
    (h : createListenSocket conf a s.epoll.fds = (sock, text, fds)) (hsock : 0 ≤ sock)
    (hthrown : { s.epoll with fds := fds }.startHandle sock a.added = .error thrown) :
    (s.start conf a).1.epoll = { s.epoll with fds := fds } := by
  unfold start
  rw [h]
  simp only [if_neg (not_lt.2 hsock)]
  rw [hthrown]

/-- What a `start()` opens, and which socket the object has behind it. -/
lemma start_cases (conf : ServerConfig) (hfits : a.Fits s.epoll.fds) :
    (a.socket ≠ 0 ∧ (a.ReachesListen → a.listens = false) ∧
      (s.start conf a).1.epoll.fds.opened = s.epoll.fds.opened ∧
      ((s.start conf a).1.epoll.socket = s.epoll.socket ∨ s.epoll.socket ≤ 0 ∧
        (s.start conf a).1.epoll.socket = 0)) ∨
    ((a.socket = 0 ∨ a.ReachesListen ∧ a.listens = true ∧
        (0 < s.epoll.socket ∨ a.added = false)) ∧
      (s.start conf a).1.epoll.fds.opened = (s.epoll.fds.acquire a.socket).opened ∧
      (s.start conf a).1.epoll.socket = s.epoll.socket) ∨
    (a.socket ≠ 0 ∧ a.ReachesListen ∧ s.epoll.socket ≤ 0 ∧ a.added = true ∧
      (s.start conf a).1.epoll.fds.opened = (s.epoll.fds.acquire a.socket).opened ∧
      (s.start conf a).1.epoll.socket = a.socket) := by
  by_cases hzero : a.socket = 0
  · refine .inr (.inl ⟨.inl hzero, ?_⟩)
    rw [(start_of_neg (createListenSocket_of_zero hzero) (by decide)).2.2]
    exact ⟨rfl, rfl⟩
  have hclosed : ((s.epoll.fds.acquire a.socket).close a.socket).opened = s.epoll.fds.opened :=
    FdTable.opened_close_acquire (FdTable.not_mem_opened_of_neg_one_or_fresh hfits.1)
  by_cases hreach : a.ReachesListen
  swap
  · obtain ⟨text, hsock⟩ : ∃ text, createListenSocket conf a s.epoll.fds = (-1, text, _) :=
      createListenSocket_of_not_reachesListen hzero hreach
    refine .inl ⟨hzero, fun h => absurd h hreach, ?_⟩
    rw [(start_of_neg hsock (by decide)).2.2]
    exact ⟨hclosed, .inl rfl⟩
  by_cases hbusy : 0 < s.epoll.socket
  · -- `start_handle` throws, whatever `create_listen_socket` returned
    cases hlistens : a.listens with
    | false =>
      refine .inl ⟨hzero, fun _ => rfl, ?_⟩
      rw [epoll_start_of_thrown (createListenSocket_of_not_listens hzero hreach hlistens) le_rfl
        (startHandle_of_busy hbusy)]
      exact ⟨hclosed, .inl rfl⟩
    | true =>
      refine .inr (.inl ⟨.inr ⟨hreach, rfl, .inl hbusy⟩, ?_⟩)
      rw [epoll_start_of_thrown (createListenSocket_of_listens hzero hreach hlistens)
        (pos_of_reachesListen hfits hzero hreach).le (startHandle_of_busy hbusy)]
      exact ⟨rfl, rfl⟩
  have hfree := not_lt.1 hbusy
  cases hlistens : a.listens with
  | false =>
    refine .inl ⟨hzero, fun _ => rfl, ?_⟩
    rw [(start_of_startHandle (createListenSocket_of_not_listens hzero hreach hlistens) le_rfl
      (startHandle_of_started hfree fun hpos => absurd hpos (lt_irrefl 0))).2.2]
    exact ⟨hclosed, .inr ⟨hfree, rfl⟩⟩
  | true =>
    have hpos := pos_of_reachesListen hfits hzero hreach
    have hsock : createListenSocket conf a s.epoll.fds = _ :=
      createListenSocket_of_listens hzero hreach hlistens
    cases hadded : a.added with
    | false =>
      refine .inr (.inl ⟨.inr ⟨hreach, rfl, .inr rfl⟩, ?_⟩)
      rw [(start_of_startHandle hsock hpos.le (startHandle_of_not_added hfree hpos hadded)).2.2]
      exact ⟨rfl, rfl⟩
    | true =>
      refine .inr (.inr ⟨hzero, hreach, hfree, rfl, ?_⟩)
      rw [(start_of_startHandle hsock hpos.le (startHandle_of_started hfree fun _ => hadded)).2.2]
      refine ⟨?_, rfl⟩
      show (if decide (0 < a.socket) then _ else _ : FdTable).opened = _
      split_ifs <;> rfl

lemma clients_start : (s.start conf a).1.epoll.clients = s.epoll.clients := by
  unfold start
  generalize createListenSocket conf a s.epoll.fds = result
  obtain ⟨sock, text, fds⟩ := result
  simp only [ServerLightEpoll.startHandle, LightEpoll.startHandle]
  split_ifs <;> rfl

lemma opened_subset_start (hfits : a.Fits s.epoll.fds) :
    s.epoll.fds.opened ⊆ (s.start conf a).1.epoll.fds.opened := by
  have hsub : s.epoll.fds.opened ⊆ (s.epoll.fds.acquire a.socket).opened := fun x hx =>
    FdTable.mem_opened_acquire.2 (.inr hx)
  rcases start_cases conf hfits with ⟨-, -, h, -⟩ | ⟨-, h, -⟩ | ⟨-, -, -, -, h, -⟩
  · exact h.symm.subset
  · exact hsub.trans h.symm.subset
  · exact hsub.trans h.symm.subset

/-- The answers to a report are those of a kernel. -/
lemma acceptsFit_of_handle {i : ℕ} {b : ServerLightEpoll.Answers}
    (h : s.next conf (.handle i b) = some s') :
    ServerLightEpoll.AcceptsFit s.epoll.fds b.accepts := by
  simp only [next] at h
  split at h
  · split_ifs at h with hfit
    exact hfit
  · cases h

/-- The clients are open, and there are no other open descriptors but the socket: what a report
keeps of this. -/
lemma opened_of_handled {e e' : ServerLightEpoll} {r : Report} {b : ServerLightEpoll.Answers}
    (hfit : ServerLightEpoll.AcceptsFit e.fds b.accepts) (h : ServerLightEpoll.Handled e r b e') :
    ((∀ x ∈ e.clients, x ∈ e.fds.opened) → ∀ x ∈ e'.clients, x ∈ e'.fds.opened) ∧
      ∀ x ∈ e'.fds.opened, x ∈ e.fds.opened ∧ (x ∈ e.clients → x ∈ e'.clients) ∨
        x ∈ e'.clients := by
  cases h with
  | ignored => exact ⟨id, fun _ hx => .inl ⟨hx, id⟩⟩
  | stopped => exact ⟨id, fun _ hx => .inl ⟨hx, id⟩⟩
  | removed hfd =>
    refine ⟨fun hold x hx => ?_, fun x hx => ?_⟩
    · obtain ⟨hne, hmem⟩ := Std.ExtTreeMap.mem_erase.1 hx
      exact Finset.mem_erase.2 ⟨fun heq => hne (heq ▸ Std.compare_self), hold x hmem⟩
    · obtain ⟨hne, hmem⟩ := Finset.mem_erase.1 hx
      refine .inl ⟨hmem, fun hclient => Std.ExtTreeMap.mem_erase.2 ⟨?_, hclient⟩⟩
      exact fun heq => hne (Std.LawfulEqCmp.eq_of_compare heq).symm
  | accepted haccepts hloop =>
    obtain ⟨hopened, hclients⟩ := ServerLightEpoll.opened_of_handleAccept hfit hloop
    exact ⟨hclients, fun x hx => (hopened x hx).imp_left fun hold =>
      ⟨hold, ServerLightEpoll.mem_clients_of_handleAccept hloop⟩⟩
  | counted hmem hkeys =>
    exact ⟨fun hold x hx => hold x ((hkeys x).1 hx), fun x hx => .inl ⟨hx, (hkeys x).2⟩⟩

/-- Behind `stop()` there are no clients. -/
lemma not_mem_clients_joined {x : Fd} : x ∉ s.joined.epoll.clients := by
  show x ∉ (ServerLightEpoll.finishStop s.epoll).clients
  rw [ServerLightEpoll.finishStop, ServerLightEpoll.mem_clients_foldl_removeClient,
    Std.ExtTreeMap.mem_keys]
  exact fun h => h.2 h.1

lemma preserves_stopCloses : Preserves (next conf) (OnStart LeaksNothing)
    fun s => s.ClientsOpen ∧ s.StopCloses := by
  rintro s act s' ⟨hclients, hcloses⟩ hC hstep
  have hleak := stopCloses_iff.1 hcloses
  cases act with
  | start a =>
    simp only [next] at hstep
    split_ifs at hstep with hc
    cases hstep
    refine ⟨?_, ?_⟩
    · intro fd hfd
      rw [clients_start] at hfd
      exact opened_subset_start hc.2 (hclients fd hfd)
    · rw [stopCloses_iff, clients_start]
      rcases start_cases conf hc.2 with ⟨-, -, hopened, hsocket⟩ |
        ⟨hbad, hopened, hsocket⟩ | ⟨-, -, hfree, -, hopened, hsocket⟩
      · rw [hopened]
        intro fd hfd
        refine (hleak fd hfd).imp_right fun hold => ?_
        rcases hsocket with hsame | ⟨hfree, -⟩
        · rw [hsame]
          exact hold
        · exact absurd hold.1 (not_lt.2 hfree)
      · rw [hopened, hsocket]
        obtain ⟨hzero, hneed⟩ := hC
        intro fd hfd
        rcases FdTable.mem_opened_acquire.1 hfd with ⟨rfl, -⟩ | hold
        · obtain ⟨hreach, hlistens, hlost⟩ := hbad.resolve_left hzero
          have hpos := pos_of_reachesListen hc.2 hzero hreach
          rcases hneed hreach hlistens with ⟨hfree, hadded⟩ | hsame
          · rcases hlost with hbusy | hnot
            · exact absurd hbusy (not_lt.2 hfree)
            · exact absurd (hadded.symm.trans hnot) (by decide)
          · exact .inr ⟨hsame ▸ hpos, hsame⟩
        · exact hleak fd hold
      · rw [hopened, hsocket]
        intro fd hfd
        rcases FdTable.mem_opened_acquire.1 hfd with ⟨rfl, hnonneg⟩ | hold
        · exact .inr ⟨lt_of_le_of_ne hnonneg (Ne.symm hC.1), rfl⟩
        · exact .inl ((hleak fd hold).resolve_right fun h => absurd h.1 (not_lt.2 hfree))
  | stop =>
    simp only [next] at hstep
    split_ifs at hstep
    cases hstep
    exact ⟨hclients, stopCloses_iff.2 hleak⟩
  | joined =>
    simp only [next] at hstep
    split_ifs at hstep
    cases hstep
    refine ⟨fun fd hfd => absurd hfd not_mem_clients_joined, stopCloses_iff.2 fun fd hfd => ?_⟩
    rw [show s.joined.epoll.fds.opened = ∅ from hcloses] at hfd
    cases hfd
  | testStop i =>
    obtain ⟨l, hl, rfl⟩ := Option.map_eq_some_iff.1 hstep
    obtain ⟨-, rfl⟩ := LightEpoll.of_testStop hl
    exact ⟨hclients, stopCloses_iff.2 hleak⟩
  | epollWait i reports =>
    obtain ⟨l, hl, rfl⟩ := Option.map_eq_some_iff.1 hstep
    obtain ⟨-, -, rfl⟩ := LightEpoll.of_epollWait hl
    exact ⟨hclients, stopCloses_iff.2 hleak⟩
  | handle i b =>
    have hfit := acceptsFit_of_handle hstep
    obtain ⟨r, rest, e, -, he, rfl⟩ := next_handle hstep
    obtain ⟨hopen, hkept⟩ := opened_of_handled hfit he
    have hsocket : e.socket = s.epoll.socket := he.frame.1
    refine ⟨hopen hclients, stopCloses_iff.2 ?_⟩
    show ∀ fd ∈ e.fds.opened, fd ∈ e.clients ∨ 0 < e.socket ∧ fd = e.socket
    rw [hsocket]
    intro fd hfd
    rcases hkept fd hfd with ⟨hold, hclient⟩ | hnew
    · exact (hleak fd hold).imp_left hclient
    · exact .inl hnew

/-- A `start()` that opens a socket the object does not come to know of leaks it. -/
lemma leaksNothing_of_stopCloses {act : ServerAct} (hclients : s.ClientsOpen)
    (hstep : s.next conf act = some s') (hleak : s'.StopCloses) :
    OnStart LeaksNothing s act := by
  cases act with
  | start a =>
    simp only [next] at hstep
    split_ifs at hstep with hc
    cases hstep
    have hfresh := FdTable.not_mem_opened_of_neg_one_or_fresh hc.2.1
    rw [stopCloses_iff, clients_start] at hleak
    rcases start_cases conf hc.2 with ⟨hzero, hfailed, -, -⟩ |
      ⟨hbad, hopened, hsocket⟩ | ⟨hzero, -, hfree, hadded, -, -⟩
    · refine ⟨hzero, fun hreach hlistens => ?_⟩
      exact absurd (hlistens.symm.trans (hfailed hreach)) (by decide)
    · have hnonneg : 0 ≤ a.socket := by
        by_cases hzero : a.socket = 0
        · exact hzero.ge
        · exact (pos_of_reachesListen hc.2 hzero (hbad.resolve_left hzero).1).le
      have hknown := hleak a.socket (by
        rw [hopened]
        exact FdTable.mem_opened_acquire.2 (.inl ⟨rfl, hnonneg⟩))
      rw [hsocket] at hknown
      obtain ⟨hpos, hsame⟩ := hknown.resolve_left fun hclient => hfresh (hclients _ hclient)
      exact ⟨by rw [hsame]; exact hpos.ne', fun _ _ => .inr hsame⟩
    · exact ⟨hzero, fun _ _ => .inl ⟨hfree, hadded⟩⟩
  | stop | joined | testStop i | epollWait i reports | handle i b => trivial

/-- **What a server leaves open.**  Along a history of calls, reports and results a `stop()` would
close every socket the server has opened or accepted, throughout, exactly if no `socket` returns
`0` and every socket that listens is the first one and is registered, or has the number of the
first one after that was closed. -/
theorem stopCloses_throughout_iff (conf : ServerConfig) (acts : List ServerAct) :
    Throughout (next conf) StopCloses new acts ↔
      Along (next conf) (OnStart LeaksNothing) new acts :=
  preserves_stopCloses.throughout_iff (fun _ h => h.2)
    (fun _ _ _ h hstep hleak => leaksNothing_of_stopCloses h.1 hstep hleak)
    ⟨fun _ h => absurd h Std.ExtTreeMap.not_mem_empty,
      stopCloses_iff.2 fun _ h => absurd h (Finset.notMem_empty _)⟩

end SinglethreadServer

end ClientServer.Netlib
