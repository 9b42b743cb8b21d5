import ClientServer.Netlib.LightEpoll

/-!
# `netlib/server.cpp`: the single-thread server

`SinglethreadServer` with its `ServerLightEpoll`, over any history of `start()` and `stop()`
calls, of reports to the event-loop threads, and of results of the system calls.  `start()` is
one step; `stop()` is a step to the join and a step from it.

`StartSound` is the contract of one `start()`.  It holds or fails for each call by itself, and
`startSound_along_iff` says for which.
-/

namespace ClientServer.Netlib

open Mync (Fd Events Report ReadAnswer)

/-! ## The class -/

/-- `ServerState`. -/
inductive ServerState
  | stopped
  | waiting
  | error
  deriving DecidableEq, Repr

/-- The member of `ServerConfig` that shows in what `create_listen_socket` does; the port and
`max_connections` only go into its calls. -/
structure ServerConfig where
  host : String

/-- The results of the calls that one `start()` makes.  A failure to set `SO_RCVTIMEO` is only
printed. -/
structure StartAnswers where
  socket : Fd
  reuseSet : Bool
  /-- `inet_pton` understands `host`. -/
  addressParsed : Bool
  bound : Bool
  listens : Bool
  added : Bool

namespace StartAnswers

/-- `socket` returns a new descriptor or `-1`, and no call on `-1` succeeds. -/
def Fits (a : StartAnswers) (t : FdTable) : Prop :=
  (a.socket = -1 ∨ t.Fresh a.socket) ∧ (a.socket = -1 → ¬ a.reuseSet)

instance (a : StartAnswers) (t : FdTable) : Decidable (a.Fits t) :=
  inferInstanceAs (Decidable (_ ∧ _))

/-- The results with which `create_listen_socket` gets as far as `listen`. -/
def ReachesListen (a : StartAnswers) : Prop := a.reuseSet ∧ a.addressParsed ∧ a.bound

instance (a : StartAnswers) : Decidable a.ReachesListen := inferInstanceAs (Decidable (_ ∧ _))

end StartAnswers

/-- `IServer::create_listen_socket`: what it returns, the new `last_error_` if there is one, and
the descriptors afterwards. -/
def createListenSocket (conf : ServerConfig) (a : StartAnswers) (t : FdTable) :
    Fd × Option String × FdTable :=
  -- the first test compares with `0`: a descriptor `0` stays open, and `-1` goes on
  if a.socket = 0 then (-1, some "socket failed", t.acquire a.socket)
  else if a.reuseSet = false then
    (-1, some "setsockopt reuseaddr failed", (t.acquire a.socket).close a.socket)
  else if a.addressParsed = false then
    (-1, some ("inet_pton failed " ++ conf.host), (t.acquire a.socket).close a.socket)
  else if a.bound = false then (-1, some "bind failed", (t.acquire a.socket).close a.socket)
  else if a.listens = false then
    -- `return false`
    (0, some "listen failed", (t.acquire a.socket).close a.socket)
  else (a.socket, none, (t.acquire a.socket).listen a.socket)

/-- The fields of `SinglethreadServer`, and where its caller is. -/
structure SinglethreadServer where
  state : ServerState
  lastError : String
  epoll : ServerLightEpoll
  /-- The caller waits in `stop()`. -/
  stopping : Bool
  /-- The last call that returned is a `stop()`. -/
  stopped : Bool

/-- What can happen next; `i` is the number of a thread. -/
inductive ServerAct
  | start (a : StartAnswers)
  /-- `stop()` up to the join. -/
  | stop
  /-- The join returns, and `stop()` goes on to its end. -/
  | joined
  | testStop (i : ℕ)
  | epollWait (i : ℕ) (reports : List Report)
  /-- `on_epoll_event` for the next report of the batch. -/
  | handle (i : ℕ) (a : ServerLightEpoll.Answers)

namespace SinglethreadServer

/-- A server before any call. -/
def new : SinglethreadServer where
  state := .stopped
  lastError := ""
  epoll := .new
  stopping := false
  stopped := false

/-- `SinglethreadServer::start`: what it returns, or the text it throws. -/
def start (conf : ServerConfig) (s : SinglethreadServer) (a : StartAnswers) :
    SinglethreadServer × Except String Bool :=
  let (sock, text, fds) := createListenSocket conf a s.epoll.fds
  let e : ServerLightEpoll := { s.epoll with fds := fds }
  let lastError := text.getD s.lastError
  if sock < 0 then
    ({ s with state := .error, lastError := lastError, epoll := e, stopped := false }, .ok false)
  else
    match e.startHandle sock a.added with
    | .ok e' =>
      ({ s with state := .waiting, lastError := lastError, epoll := e', stopped := false },
        .ok true)
    | .error thrown =>
      ({ s with state := .waiting, lastError := lastError, epoll := e, stopped := false },
        .error thrown)

/-- `SinglethreadServer::stop` up to the join. -/
def stop (s : SinglethreadServer) : SinglethreadServer :=
  { s with state := .stopped, epoll := { s.epoll with needStop := true }, stopping := true }

/-- `SinglethreadServer::stop` from the join on. -/
def joined (s : SinglethreadServer) : SinglethreadServer :=
  { s with epoll := s.epoll.finishStop, stopping := false, stopped := true }

/-- A step of a thread that concerns only the common part of the loop. -/
def withLoop (s : SinglethreadServer) (l : LightEpoll) : SinglethreadServer :=
  { s with epoll := { s.epoll with toLightEpoll := l } }

/-- One step; none where it cannot be taken, and where an exception ends the process. -/
def next (conf : ServerConfig) (s : SinglethreadServer) : ServerAct → Option SinglethreadServer
  | .start a =>
    if s.stopping = false ∧ a.Fits s.epoll.fds then some (s.start conf a).1 else none
  | .stop => if s.stopping = false then some s.stop else none
  | .joined => if s.stopping = true ∧ s.epoll.Joined then some s.joined else none
  | .testStop i => (s.epoll.testStop i).map s.withLoop
  | .epollWait i reports => (s.epoll.epollWait i reports).map s.withLoop
  | .handle i a =>
    match s.epoll.report? i with
    | some (r, rest) =>
      if ServerLightEpoll.AcceptsFit s.epoll.fds a.accepts then
        match s.epoll.onEpollEvent r a with
        | some (.ok e) => some { s with epoll := { e with toLightEpoll := e.goto i (.after rest) } }
        | _ => none
      else none
    | none => none

/-! ## The contract of `start()` -/

/-- A socket that listens is registered, and a thread that will not stop serves it. -/
def Served (s : SinglethreadServer) : Prop :=
  s.epoll.socket ∈ s.epoll.fds.listening ∧ s.epoll.socket ∈ s.epoll.fds.watched ∧
    s.epoll.needStop = false ∧
    ∃ i ∈ s.epoll.handleth, ∃ pc ∈ s.epoll.threads[i]?, pc ≠ .returned

/-- `start()` returns `true` in the state `WAITING`, and the server is served; or it returns
`false` in the state `ERROR`, and leaves no descriptor open.  After a `stop()` it returns what
the first `start()` returns. -/
def StartSound (conf : ServerConfig) (s : SinglethreadServer) (a : StartAnswers) : Prop :=
  ((s.start conf a).2 = .ok true ∧ (s.start conf a).1.state = .waiting ∧
        (s.start conf a).1.Served ∨
      (s.start conf a).2 = .ok false ∧ (s.start conf a).1.state = .error ∧
        (s.start conf a).1.epoll.fds.opened ⊆ s.epoll.fds.opened) ∧
    (s.stopped = true → (s.start conf a).2 = (new.start conf a).2)

/-- The results and the state with which a `start()` keeps the contract: the new descriptor is
not `0`, and a call that reaches `listen` succeeds there, finds `socket_` free and the stop flag
down, and succeeds in `add_fd`. -/
def StartsSound (s : SinglethreadServer) (a : StartAnswers) : Prop :=
  a.socket ≠ 0 ∧ (a.ReachesListen →
    a.listens = true ∧ s.epoll.socket ≤ 0 ∧ s.epoll.needStop = false ∧ a.added = true)

/-- `P` holds of the step if it is a `start()`. -/
def OnStart (P : SinglethreadServer → StartAnswers → Prop) (s : SinglethreadServer) :
    ServerAct → Prop
  | .start a => P s a
  | _ => True

section Results

variable {conf : ServerConfig} {a : StartAnswers} {t : FdTable} {s s' : SinglethreadServer}

/-! ## The results of `create_listen_socket` -/

lemma createListenSocket_of_zero (h : a.socket = 0) :
    createListenSocket conf a t = (-1, some "socket failed", t.acquire a.socket) := by
  unfold createListenSocket
  rw [if_pos h]

/-- The exits before `listen` close what was opened. -/
lemma createListenSocket_of_not_reachesListen (hzero : a.socket ≠ 0) (h : ¬ a.ReachesListen) :
    ∃ text, createListenSocket conf a t = (-1, text, (t.acquire a.socket).close a.socket) := by
  unfold createListenSocket
  rw [if_neg hzero]
  split_ifs with hreuse hparsed hbound hlistens
  · exact ⟨_, rfl⟩
  · exact ⟨_, rfl⟩
  · exact ⟨_, rfl⟩
  all_goals
    exact absurd ⟨eq_true_of_ne_false hreuse, eq_true_of_ne_false hparsed,
      eq_true_of_ne_false hbound⟩ h

/-- A failure of `listen` returns `0`, which the caller takes for a descriptor. -/
lemma createListenSocket_of_not_listens (hzero : a.socket ≠ 0) (h : a.ReachesListen)
    (hlistens : a.listens = false) :
    createListenSocket conf a t =
      (0, some "listen failed", (t.acquire a.socket).close a.socket) := by
  unfold createListenSocket
  rw [if_neg hzero, if_neg (by simp [h.1]), if_neg (by simp [h.2.1]), if_neg (by simp [h.2.2]),
    if_pos hlistens]

lemma createListenSocket_of_listens (hzero : a.socket ≠ 0) (h : a.ReachesListen)
    (hlistens : a.listens = true) :
    createListenSocket conf a t = (a.socket, none, (t.acquire a.socket).listen a.socket) := by
  unfold createListenSocket
  rw [if_neg hzero, if_neg (by simp [h.1]), if_neg (by simp [h.2.1]), if_neg (by simp [h.2.2]),
    if_neg (by simp [hlistens])]

/-- A socket that gets as far as `listen` is a descriptor. -/
lemma pos_of_reachesListen (hfits : a.Fits t) (hzero : a.socket ≠ 0) (h : a.ReachesListen) :
    0 < a.socket := by
  obtain hnone | hfresh := hfits.1
  · exact absurd h.1 (hfits.2 hnone)
  · exact lt_of_le_of_ne hfresh.1 (Ne.symm hzero)

/-! ## The results of `start()` -/

/-- Where `create_listen_socket` returns `-1`. -/
lemma start_of_neg {sock : Fd} {text : Option String} {fds : FdTable}
    (h : createListenSocket conf a s.epoll.fds = (sock, text, fds)) (hsock : sock < 0) :
    (s.start conf a).2 = .ok false ∧ (s.start conf a).1.state = .error ∧
      (s.start conf a).1.epoll = { s.epoll with fds := fds } := by
  unfold start
  rw [h]
  simp [hsock]

/-- Where it returns a descriptor, and `start_handle` throws. -/
lemma start_of_thrown {sock : Fd} {text : Option String} {fds : FdTable} {thrown : String}
    (h : createListenSocket conf a s.epoll.fds = (sock, text, fds)) (hsock : 0 ≤ sock)
    (hthrown : { s.epoll with fds := fds }.startHandle sock a.added = .error thrown) :
    (s.start conf a).2 = .error thrown := by
  unfold start
  rw [h]
  simp only [if_neg (not_lt.2 hsock)]
  rw [hthrown]

/-- Where it returns a descriptor, and `start_handle` does not throw: `start()` returns `true`,
whatever `start_handle` did. -/
lemma start_of_startHandle {sock : Fd} {text : Option String} {fds : FdTable}
    {e : ServerLightEpoll} (h : createListenSocket conf a s.epoll.fds = (sock, text, fds))
    (hsock : 0 ≤ sock) (he : { s.epoll with fds := fds }.startHandle sock a.added = .ok e) :
    (s.start conf a).2 = .ok true ∧ (s.start conf a).1.state = .waiting ∧
      (s.start conf a).1.epoll = e := by
  unfold start
  rw [h]
  simp only [if_neg (not_lt.2 hsock)]
  rw [he]
  exact ⟨rfl, rfl, rfl⟩

/-- `0` and `-1` are sockets that nobody serves. -/
lemma not_served_of_nonpos (hsocket : s.epoll.socket ≤ 0)
    (hlistening : 0 ∉ s.epoll.fds.listening) : ¬ s.Served := by
  rintro ⟨hmem, -⟩
  have hnonneg := s.epoll.fds.nonneg _ (s.epoll.fds.listening_opened hmem)
  have hzero : s.epoll.socket = 0 := le_antisymm hsocket hnonneg
  rw [hzero] at hmem
  exact hlistening hmem

/-- A `start()` that returns `-1` from `create_listen_socket` keeps the contract if it closes
what it opened. -/
lemma startSound_of_not_reachesListen (hfits : a.Fits s.epoll.fds) (hzero : a.socket ≠ 0)
    (h : ¬ a.ReachesListen) : s.StartSound conf a := by
  have hreturn (t : SinglethreadServer) : (t.start conf a).2 = .ok false ∧
      (t.start conf a).1.state = .error ∧
      (t.start conf a).1.epoll.fds = (t.epoll.fds.acquire a.socket).close a.socket := by
    obtain ⟨text, htext⟩ : ∃ text, createListenSocket conf a t.epoll.fds = (-1, text, _) :=
      createListenSocket_of_not_reachesListen hzero h
    obtain ⟨hret, hstate, hepoll⟩ := start_of_neg htext (by decide)
    exact ⟨hret, hstate, by rw [hepoll]⟩
  obtain ⟨hret, hstate, hfds⟩ := hreturn s
  refine ⟨Or.inr ⟨hret, hstate, ?_⟩, fun _ => hret.trans (hreturn new).1.symm⟩
  rw [hfds, FdTable.opened_close_acquire (FdTable.not_mem_opened_of_neg_one_or_fresh hfits.1)]

/-- A descriptor `0` is not closed. -/
lemma not_startSound_of_zero (hfits : a.Fits s.epoll.fds) (hzero : a.socket = 0) :
    ¬ s.StartSound conf a := by
  obtain ⟨hret, -, hepoll⟩ :=
    start_of_neg (createListenSocket_of_zero hzero) (by decide)
  rintro ⟨⟨htrue, -⟩ | ⟨-, -, hsub⟩, -⟩
  · rw [hret] at htrue
    cases htrue
  · apply FdTable.not_mem_opened_of_neg_one_or_fresh hfits.1
    apply hsub
    rw [hepoll]
    exact FdTable.mem_opened_acquire.2 (Or.inl ⟨rfl, hzero.ge⟩)

/-- Where `start()` returns `true`, the contract asks for a served socket. -/
lemma StartSound.served (h : s.StartSound conf a) (hret : (s.start conf a).2 = .ok true) :
    (s.start conf a).1.Served := by
  obtain ⟨⟨-, -, hserved⟩ | ⟨hfalse, -⟩, -⟩ := h
  · exact hserved
  · rw [hret] at hfalse
    cases hfalse

lemma StartSound.not_thrown (h : s.StartSound conf a) (thrown : String) :
    (s.start conf a).2 ≠ .error thrown := by
  obtain ⟨⟨hret, -⟩ | ⟨hret, -⟩, -⟩ := h
  · rw [hret]
    simp
  · rw [hret]
    simp

lemma startHandle_of_busy {e : ServerLightEpoll} {sock : Fd} {added : Bool}
    (hbusy : 0 < e.socket) : e.startHandle sock added = .error "srv wrong use start_handle " := by
  unfold ServerLightEpoll.startHandle
  rw [LightEpoll.startHandle_of_busy hbusy]
  rfl

lemma startHandle_of_not_added {e : ServerLightEpoll} {sock : Fd} {added : Bool}
    (hfree : e.socket ≤ 0) (hsock : 0 < sock) (hadded : added = false) :
    e.startHandle sock added = .ok e := by
  unfold ServerLightEpoll.startHandle
  rw [LightEpoll.startHandle_of_not_added hfree (decide_eq_true hsock) hadded]
  rfl

lemma startHandle_of_started {e : ServerLightEpoll} {sock : Fd} {added : Bool}
    (hfree : e.socket ≤ 0) (hadded : 0 < sock → added = true) :
    e.startHandle sock added =
      .ok { e with toLightEpoll := e.toLightEpoll.started sock (0 < sock) } := by
  unfold ServerLightEpoll.startHandle
  rw [LightEpoll.startHandle_of_started hfree fun h => hadded (of_decide_eq_true h)]
  rfl

/-- A failed `listen` breaks the contract. -/
lemma not_startSound_of_not_listens (hzero : a.socket ≠ 0) (hreach : a.ReachesListen)
    (hlistens : a.listens = false) (hlistening : 0 ∉ s.epoll.fds.listening) :
    ¬ s.StartSound conf a := by
  intro h
  have hsock : createListenSocket conf a s.epoll.fds = _ :=
    createListenSocket_of_not_listens hzero hreach hlistens
  by_cases hbusy : 0 < s.epoll.socket
  · exact h.not_thrown _ (start_of_thrown hsock le_rfl (startHandle_of_busy hbusy))
  · obtain ⟨hret, -, hepoll⟩ := start_of_startHandle hsock le_rfl
      (startHandle_of_started (not_lt.1 hbusy) fun hpos => absurd hpos (lt_irrefl 0))
    refine not_served_of_nonpos ?_ ?_ (h.served hret)
    · rw [hepoll]
      exact le_rfl
    · rw [hepoll]
      exact fun hmem => hlistening (Finset.mem_of_mem_erase hmem)

lemma mem_opened_acquire_of_pos (hpos : 0 < a.socket) (t : FdTable) :
    a.socket ∈ (t.acquire a.socket).opened :=
  FdTable.mem_opened_acquire.2 (Or.inl ⟨rfl, hpos.le⟩)

/-- A failed `add_fd` breaks the contract: the socket listens and nobody serves it. -/
lemma not_startSound_of_not_added (hpos : 0 < a.socket) (hreach : a.ReachesListen)
    (hlistens : a.listens = true) (hfree : s.epoll.socket ≤ 0) (hadded : a.added = false)
    (hlistening : 0 ∉ s.epoll.fds.listening) : ¬ s.StartSound conf a := by
  intro h
  obtain ⟨hret, -, hepoll⟩ := start_of_startHandle
    (createListenSocket_of_listens hpos.ne' hreach hlistens) hpos.le
    (startHandle_of_not_added hfree hpos hadded)
  refine not_served_of_nonpos ?_ ?_ (h.served hret)
  · rw [hepoll]
    exact hfree
  · rw [hepoll]
    show 0 ∉ ((s.epoll.fds.acquire a.socket).listen a.socket).listening
    rw [FdTable.listening_listen (mem_opened_acquire_of_pos hpos _), Finset.mem_insert]
    rintro (heq | hmem)
    · exact hpos.ne heq
    · exact hlistening hmem

/-- Where the event loop is started, the contract is kept exactly if the stop flag is down. -/
lemma startSound_iff_of_started (hpos : 0 < a.socket) (hreach : a.ReachesListen)
    (hlistens : a.listens = true) (hfree : s.epoll.socket ≤ 0) (hadded : a.added = true) :
    s.StartSound conf a ↔ s.epoll.needStop = false := by
  have hsock (t : FdTable) : createListenSocket conf a t = _ :=
    createListenSocket_of_listens hpos.ne' hreach hlistens
  obtain ⟨hret, hstate, hepoll⟩ := start_of_startHandle (hsock _) hpos.le
    (startHandle_of_started hfree fun _ => hadded)
  obtain ⟨hnew, -⟩ := start_of_startHandle (s := new) (hsock _) hpos.le
    (startHandle_of_started (show (-1 : Fd) ≤ 0 by decide) fun _ => hadded)
  constructor
  · intro h
    obtain ⟨-, -, hneed, -⟩ := h.served hret
    rw [hepoll] at hneed
    exact hneed
  · intro hneed
    refine ⟨Or.inl ⟨hret, hstate, ?_⟩, fun _ => hret.trans hnew.symm⟩
    unfold Served
    rw [hepoll]
    refine ⟨?_, ?_, hneed, s.epoll.threads.length, rfl, .loopHead,
      LightEpoll.getElem?_started _ _, by simp⟩
    · show a.socket ∈ (if decide (0 < a.socket) then _ else _ : FdTable).listening
      rw [if_pos (decide_eq_true hpos), FdTable.listening_watch]
      exact FdTable.mem_listening_listen (mem_opened_acquire_of_pos hpos _)
    · show a.socket ∈ (if decide (0 < a.socket) then _ else _ : FdTable).watched
      rw [if_pos (decide_eq_true hpos)]
      exact FdTable.mem_watched_watch (mem_opened_acquire_of_pos hpos _)

/-- Where `listen` succeeds, the contract is kept exactly if the socket is free, the stop flag is
down, and `add_fd` succeeds. -/
lemma startSound_iff_of_listens (hfits : a.Fits s.epoll.fds) (hzero : a.socket ≠ 0)
    (hreach : a.ReachesListen) (hlistens : a.listens = true)
    (hlistening : 0 ∉ s.epoll.fds.listening) :
    s.StartSound conf a ↔
      s.epoll.socket ≤ 0 ∧ s.epoll.needStop = false ∧ a.added = true := by
  have hpos := pos_of_reachesListen hfits hzero hreach
  by_cases hbusy : 0 < s.epoll.socket
  · refine iff_of_false (fun h => ?_) fun h => absurd hbusy (not_lt.2 h.1)
    exact h.not_thrown _ (start_of_thrown (createListenSocket_of_listens hzero hreach hlistens)
      hpos.le (startHandle_of_busy hbusy))
  have hfree := not_lt.1 hbusy
  cases hadded : a.added with
  | false =>
    exact iff_of_false
      (not_startSound_of_not_added hpos hreach hlistens hfree hadded hlistening)
      fun h => by cases h.2.2
  | true =>
    rw [startSound_iff_of_started hpos hreach hlistens hfree hadded]
    simp [hfree]

/-- One `start()` keeps the contract exactly under `StartsSound`. -/
lemma startSound_iff (hfits : a.Fits s.epoll.fds) (hlistening : 0 ∉ s.epoll.fds.listening) :
    s.StartSound conf a ↔ s.StartsSound a := by
  by_cases hzero : a.socket = 0
  · exact iff_of_false (not_startSound_of_zero hfits hzero) fun h => h.1 hzero
  by_cases hreach : a.ReachesListen
  swap
  · exact iff_of_true (startSound_of_not_reachesListen hfits hzero hreach)
      ⟨hzero, fun h => absurd h hreach⟩
  cases hlistens : a.listens with
  | false =>
    refine iff_of_false (not_startSound_of_not_listens hzero hreach hlistens hlistening) ?_
    intro h
    exact absurd (hlistens.symm.trans (h.2 hreach).1) (by decide)
  | true =>
    rw [startSound_iff_of_listens hfits hzero hreach hlistens hlistening]
    exact ⟨fun h => ⟨hzero, fun _ => ⟨hlistens, h⟩⟩, fun h => (h.2 hreach).2⟩

/-! ## Runs -/

lemma next_handle {i : ℕ} {b : ServerLightEpoll.Answers}
    (h : s.next conf (.handle i b) = some s') :
    ∃ r rest e, s.epoll.report? i = some (r, rest) ∧ ServerLightEpoll.Handled s.epoll r b e ∧
      s' = { s with epoll := { e with toLightEpoll := e.goto i (.after rest) } } := by
  simp only [next] at h
  split at h
  · rename_i r rest hi
    split_ifs at h
    split at h
    · rename_i e he
      cases h
      exact ⟨r, rest, e, hi, ServerLightEpoll.handled_of_ok he, rfl⟩
    · cases h
  · cases h

/-- Only `start()` lets a socket listen, and no step takes the stop flag down. -/
lemma next_frame {act : ServerAct} (hstart : ∀ a, act ≠ .start a) (h : s.next conf act = some s') :
    (s.epoll.needStop = true → s'.epoll.needStop = true) ∧
      s'.epoll.fds.listening ⊆ s.epoll.fds.listening := by
  cases act with
  | start a => exact absurd rfl (hstart a)
  | stop =>
    simp only [next] at h
    split_ifs at h
    cases h
    exact ⟨fun _ => rfl, Finset.Subset.refl _⟩
  | joined =>
    simp only [next] at h
    split_ifs at h
    cases h
    obtain ⟨hneed, hlistening⟩ := ServerLightEpoll.finishStop_frame s.epoll
    exact ⟨hneed.trans, hlistening⟩
  | testStop i =>
    obtain ⟨l, hl, rfl⟩ := Option.map_eq_some_iff.1 h
    obtain ⟨-, rfl⟩ := LightEpoll.of_testStop hl
    exact ⟨id, Finset.Subset.refl _⟩
  | epollWait i reports =>
    obtain ⟨l, hl, rfl⟩ := Option.map_eq_some_iff.1 h
    obtain ⟨-, -, rfl⟩ := LightEpoll.of_epollWait hl
    exact ⟨id, Finset.Subset.refl _⟩
  | handle i b =>
    obtain ⟨r, rest, e, -, he, rfl⟩ := next_handle h
    exact he.frame.2.2.2

lemma zero_not_mem_createListenSocket (h : 0 ∉ t.listening) :
    0 ∉ (createListenSocket conf a t).2.2.listening := by
  have hclosed : 0 ∉ ((t.acquire a.socket).close a.socket).listening :=
    fun hmem => h (Finset.mem_of_mem_erase hmem)
  unfold createListenSocket
  split_ifs with hzero hreuse hparsed hbound hlistens
  · exact h
  · exact hclosed
  · exact hclosed
  · exact hclosed
  · exact hclosed
  · show 0 ∉ (if _ then insert a.socket t.listening else t.listening)
    split_ifs
    · rw [Finset.mem_insert]
      exact fun hmem => hmem.elim (Ne.symm hzero) h
    · exact h

lemma listening_start :
    (s.start conf a).1.epoll.fds.listening =
      (createListenSocket conf a s.epoll.fds).2.2.listening := by
  unfold start
  generalize createListenSocket conf a s.epoll.fds = result
  obtain ⟨sock, text, fds⟩ := result
  simp only [ServerLightEpoll.startHandle, LightEpoll.startHandle]
  split_ifs <;> rfl

/-- No `listen` succeeds on the descriptor `0`. -/
lemma preserves_zero_not_listening :
    Preserves (next conf) (fun _ _ => True) fun s => 0 ∉ s.epoll.fds.listening := by
  intro s act s' h _ hstep
  by_cases hstart : ∃ a, act = .start a
  · obtain ⟨a, rfl⟩ := hstart
    simp only [next] at hstep
    split_ifs at hstep
    cases hstep
    rw [listening_start]
    exact zero_not_mem_createListenSocket h
  · exact fun hmem => h ((next_frame (not_exists.mp hstart) hstep).2 hmem)

/-- **The contract of `start()`.**  Along any history of calls, reports and results every
`start()` keeps it exactly if every one gets a descriptor other than `0`, and each that reaches
`listen` succeeds there, finds `socket_` free and the stop flag down, and succeeds in `add_fd`. -/
theorem startSound_along_iff (conf : ServerConfig) (acts : List ServerAct) :
    Along (next conf) (OnStart (StartSound conf)) new acts ↔
      Along (next conf) (OnStart StartsSound) new acts := by
  apply preserves_zero_not_listening.along_congr
  · intro s act s' h hstep
    cases act with
    | start a =>
      simp only [next] at hstep
      split_ifs at hstep with hc
      exact startSound_iff hc.2 h
    | stop => exact Iff.rfl
    | joined => exact Iff.rfl
    | testStop i => exact Iff.rfl
    | epollWait i reports => exact Iff.rfl
    | handle i b => exact Iff.rfl
  · exact Finset.notMem_empty 0

/-- The stop flag is never taken down again. -/
lemma preserves_needStop :
    Preserves (next conf) (fun _ _ => True) fun s => s.epoll.needStop = true := by
  intro s act s' h _ hstep
  by_cases hstart : ∃ a, act = .start a
  · obtain ⟨a, rfl⟩ := hstart
    simp only [next] at hstep
    split_ifs at hstep
    cases hstep
    unfold start
    generalize createListenSocket conf a s.epoll.fds = result
    obtain ⟨sock, text, fds⟩ := result
    simp only [ServerLightEpoll.startHandle, LightEpoll.startHandle]
    split_ifs <;> exact h
  · exact (next_frame (not_exists.mp hstart) hstep).1 h

/-- After one `stop()`, no history brings a served state back. -/
theorem not_served_after_stop (s : SinglethreadServer) (acts : List ServerAct) :
    Throughout (next conf) (fun s => ¬ s.Served) s.stop acts :=
  preserves_needStop.throughout
    (fun _ h hserved => absurd (h.symm.trans hserved.2.2.1) (by decide)) rfl
    (along_of_forall (fun _ _ => trivial) _ acts)

end Results

/-- `listen` fails on the descriptor `3`. -/
def listenFails : StartAnswers := ⟨3, true, true, true, false, true⟩

/-- The `false` that `create_listen_socket` returns for a failed `listen` is taken for a
descriptor: `start()` returns `true`, and nothing listens. -/
theorem not_startSound_of_listen_failure :
    ¬ Along (next ⟨"0.0.0.0"⟩) (OnStart (StartSound ⟨"0.0.0.0"⟩)) new [.start listenFails] := by
  intro h
  obtain ⟨hsound, -⟩ := h _ rfl
  obtain ⟨⟨-, -, hserved⟩ | ⟨hret, -⟩, -⟩ := hsound
  · exact absurd hserved.1 (by decide)
  · cases hret

end SinglethreadServer

end ClientServer.Netlib
