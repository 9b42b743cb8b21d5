import ClientServer.Netlib.LightEpoll

/-!
# `netlib/client.cpp`: the single-thread client

`SinglethreadClient` with its `ClientLightEpoll`, over any history of `connect()` and
`disconnect()` calls, of reports to the event-loop threads, and of results of the socket calls.
`connect()` is one step.  `disconnect()` waits in `join`, and the threads go on meanwhile: it is
a step to the join and a step from it.

`getClientState()` shows `state_` alone.  `Sound` is what a caller may conclude from it, and
`sound_throughout_iff` says along which histories the conclusion is right.
-/

namespace ClientServer.Netlib

open Mync (Fd Events Report ReadAnswer)

/-! ## The class -/

/-- `ClientState`. -/
inductive ClientState
  | disconnected
  | reconnected
  | handshake
  | waiting
  | sending
  | error
  deriving DecidableEq, Repr

/-- The member of `ClientConfig` that decides what `create_socket_connect` does; the address and
the port only go into its calls. -/
structure ClientConfig where
  host : String

/-- The results of the calls that one `connect()` makes. -/
structure ConnectAnswers where
  socket : Fd
  /-- `inet_pton` understands `host`. -/
  hostParsed : Bool
  bound : Bool
  /-- `inet_pton` understands `server_ip`. -/
  addressParsed : Bool
  connected : Bool
  added : Bool

namespace ConnectAnswers

/-- `socket` returns a new descriptor or `-1`, and no call on `-1` succeeds. -/
def Fits (a : ConnectAnswers) (t : FdTable) : Prop :=
  (a.socket = -1 ∨ t.Fresh a.socket) ∧ (a.socket = -1 → ¬ a.bound ∧ ¬ a.connected)

instance (a : ConnectAnswers) (t : FdTable) : Decidable (a.Fits t) :=
  inferInstanceAs (Decidable (_ ∧ _))

/-- The results with which `create_socket_connect` returns a connected socket. -/
def Connects (a : ConnectAnswers) (conf : ClientConfig) : Prop :=
  a.socket ≠ 0 ∧ (conf.host ≠ "" → a.hostParsed ∧ a.bound) ∧ a.addressParsed ∧ a.connected

instance (a : ConnectAnswers) (conf : ClientConfig) : Decidable (a.Connects conf) :=
  inferInstanceAs (Decidable (_ ∧ _))

end ConnectAnswers

/-- `IClient::create_socket_connect`: the socket, or `last_error_` where it returns `-1`, and the
descriptors afterwards. -/
def createSocketConnect (conf : ClientConfig) (a : ConnectAnswers) (t : FdTable) :
    Except String Fd × FdTable :=
  -- the first test compares with `0`: a descriptor `0` stays open, and `-1` goes on
  if a.socket = 0 then (.error "socket failed", t.acquire a.socket)
  else if conf.host ≠ "" ∧ ¬ a.hostParsed then
    (.error ("inet_pton bind failed " ++ conf.host), (t.acquire a.socket).close a.socket)
  else if conf.host ≠ "" ∧ ¬ a.bound then
    (.error "bind failed", (t.acquire a.socket).close a.socket)
  else if ¬ a.addressParsed then
    (.error ("inet_pton failed " ++ conf.host), (t.acquire a.socket).close a.socket)
  else if ¬ a.connected then
    (.error "connection failed", (t.acquire a.socket).close a.socket)
  else (.ok a.socket, t.acquire a.socket)

/-- The fields of `SinglethreadClient`, and where its caller is. -/
structure SinglethreadClient where
  state : ClientState
  lastError : String
  epoll : LightEpoll
  /-- The caller waits in `disconnect()`. -/
  stopping : Bool
  /-- The last call that returned is a `disconnect()`. -/
  stopped : Bool

/-- What can happen next; `i` is the number of a thread. -/
inductive ClientAct
  | connect (a : ConnectAnswers)
  /-- `disconnect()` up to the join. -/
  | disconnect
  /-- The join returns, and `disconnect()` with it. -/
  | joined
  | testStop (i : ℕ)
  | epollWait (i : ℕ) (reports : List Report)
  /-- `on_epoll_event` for the next report of the batch. -/
  | handle (i : ℕ) (a : ReadAnswer)

namespace SinglethreadClient

/-- A client before any call. -/
def new : SinglethreadClient where
  state := .disconnected
  lastError := ""
  epoll := .new
  stopping := false
  stopped := false

/-- `SinglethreadClient::connect`, with the text it throws.  The state `HANDSHAKE` in between
lasts for no call. -/
def connect (conf : ClientConfig) (c : SinglethreadClient) (a : ConnectAnswers) :
    SinglethreadClient × Option String :=
  match createSocketConnect conf a c.epoll.fds with
  | (.error text, fds) =>
    ({ c with state := .error, lastError := text, epoll := { c.epoll with fds := fds },
              stopped := false }, none)
  | (.ok sock, fds) =>
    let e : LightEpoll := { c.epoll with fds := fds }
    match ClientLightEpoll.startHandle e sock a.added with
    | .ok e' => ({ c with state := .waiting, epoll := e', stopped := false }, none)
    | .error text => ({ c with state := .waiting, epoll := e, stopped := false }, some text)

/-- `SinglethreadClient::disconnect` up to the join. -/
def disconnect (c : SinglethreadClient) : SinglethreadClient :=
  { c with state := .disconnected, epoll := c.epoll.setNeedStop, stopping := true }

/-- `SinglethreadClient::disconnect` from the join on. -/
def joined (c : SinglethreadClient) : SinglethreadClient :=
  { c with epoll := ClientLightEpoll.finishStop c.epoll, stopping := false, stopped := true }

/-- `SinglethreadClient::onEvent`. -/
def onEvent (c : SinglethreadClient) (ev : EventType) : SinglethreadClient :=
  match ev with
  | .disconnected => { c with state := .disconnected }
  | .reconnected => { c with state := .reconnected }
  | .waiting => { c with state := .waiting }
  | .clientDisconnect => c

/-- `on_epoll_event` of the client's loop, with the `onEvent` it calls. -/
def handle (c : SinglethreadClient) (r : Report) (a : ReadAnswer) :
    Except String SinglethreadClient :=
  (ClientLightEpoll.onEpollEvent c.epoll r a).map fun
    | (e, none) => { c with epoll := e }
    | (e, some ev) => { c with epoll := e }.onEvent ev

/-- `recv` returns bytes, or the end of the stream, only on an open socket. -/
def RecvFits (c : SinglethreadClient) (a : ReadAnswer) : Prop :=
  c.epoll.socket ∈ c.epoll.fds.opened ∨ a.bytes = [] ∧ ¬ a.isEof

instance (c : SinglethreadClient) (a : ReadAnswer) : Decidable (c.RecvFits a) :=
  inferInstanceAs (Decidable (_ ∨ _))

/-- One step; none where it cannot be taken, and where an exception ends the process. -/
def next (conf : ClientConfig) (c : SinglethreadClient) : ClientAct → Option SinglethreadClient
  | .connect a =>
    if c.stopping = false ∧ a.Fits c.epoll.fds then some (c.connect conf a).1 else none
  | .disconnect => if c.stopping = false then some c.disconnect else none
  | .joined => if c.stopping = true ∧ c.epoll.Joined then some c.joined else none
  | .testStop i => (c.epoll.testStop i).map fun e => { c with epoll := e }
  | .epollWait i reports => (c.epoll.epollWait i reports).map fun e => { c with epoll := e }
  | .handle i a =>
    match c.epoll.report? i with
    | some (r, rest) =>
      if c.RecvFits a then
        match c.handle r a with
        | .ok c' => some { c' with epoll := c'.epoll.goto i (.after rest) }
        | .error _ => none
      else none
    | none => none

/-! ## What the state promises -/

/-- There is a working connection: an open and registered socket and one thread to serve it. -/
def Connected (c : SinglethreadClient) : Prop :=
  c.epoll.socket ∈ c.epoll.fds.opened ∧ c.epoll.socket ∈ c.epoll.fds.watched ∧
    c.epoll.running = 1 ∧ c.epoll.needStop = false

/-- While no call is in progress: `WAITING` means a working connection, and `DISCONNECTED` after
`disconnect()` that no thread is left. -/
def Sound (c : SinglethreadClient) : Prop :=
  c.stopping = false →
    (c.state = .waiting → c.Connected) ∧
    (c.state = .disconnected → c.stopped = true → c.epoll.running = 0)

instance (c : SinglethreadClient) : Decidable c.Sound :=
  inferInstanceAs (Decidable (_ → ((_ → _ ∧ _ ∧ _ ∧ _) ∧ (_ → _ → _))))

/-- The report of `i` is an orderly end of the stream, without a hang-up bit. -/
def ReadsEof (c : SinglethreadClient) (i : ℕ) (a : ReadAnswer) : Prop :=
  a.isEof ∧ ∃ p ∈ c.epoll.report? i, ¬ p.1.events.closing

/-- What keeps the state sound: a `connect()` that gets a connection, with none there, finds the
stop flag down and no thread from before, and its `add_fd` succeeds; and a `recv` does not return
`0` while the state is `WAITING`. -/
def KeepsSound (conf : ClientConfig) (c : SinglethreadClient) : ClientAct → Prop
  | .connect a =>
    a.Connects conf → c.epoll.socket ≤ 0 →
      c.epoll.needStop = false ∧ c.epoll.running = 0 ∧ a.added = true
  | .handle i a => c.epoll.needStop = false → c.ReadsEof i a → c.state ≠ .waiting
  | _ => True

section Results

variable {conf : ClientConfig} {a : ConnectAnswers} {t : FdTable} {c c' : SinglethreadClient}

/-! ## The results of `connect()` -/

lemma not_mem_watched_of_fits (h : a.Fits t) : a.socket ∉ t.watched :=
  fun hmem => FdTable.not_mem_opened_of_neg_one_or_fresh h.1 (t.watched_opened hmem)

lemma createSocketConnect_of_connects (h : a.Connects conf) :
    createSocketConnect conf a t = (.ok a.socket, t.acquire a.socket) := by
  obtain ⟨hzero, hhost, hparsed, hconnected⟩ := h
  have hhostParsed : ¬ (conf.host ≠ "" ∧ ¬ a.hostParsed) := fun hbad => hbad.2 (hhost hbad.1).1
  have hbound : ¬ (conf.host ≠ "" ∧ ¬ a.bound) := fun hbad => hbad.2 (hhost hbad.1).2
  unfold createSocketConnect
  rw [if_neg hzero, if_neg hhostParsed, if_neg hbound, if_neg (not_not.2 hparsed),
    if_neg (not_not.2 hconnected)]

/-- Every failing exit leaves the interest set as it was. -/
lemma createSocketConnect_of_not_connects (hfits : a.Fits t) (h : ¬ a.Connects conf) :
    ∃ text t', createSocketConnect conf a t = (.error text, t') ∧ t'.watched = t.watched := by
  have hclosed : t.watched.erase a.socket = t.watched :=
    Finset.erase_eq_of_notMem (not_mem_watched_of_fits hfits)
  unfold createSocketConnect
  split_ifs with hzero hhostParsed hbound hparsed hconnected
  · exact ⟨_, _, rfl, rfl⟩
  · exact ⟨_, _, rfl, hclosed⟩
  · exact ⟨_, _, rfl, hclosed⟩
  · refine absurd ⟨hzero, fun hhost => ?_, hparsed, hconnected⟩ h
    exact ⟨not_not.1 fun hbad => hhostParsed ⟨hhost, hbad⟩,
      not_not.1 fun hbad => hbound ⟨hhost, hbad⟩⟩
  · exact ⟨_, _, rfl, hclosed⟩
  · exact ⟨_, _, rfl, hclosed⟩

/-- A connected socket is a new descriptor, and not `0`. -/
lemma fresh_of_connects (hfits : a.Fits t) (h : a.Connects conf) :
    0 < a.socket ∧ a.socket ∉ t.opened := by
  obtain hnone | hfresh := hfits.1
  · exact absurd h.2.2.2 (hfits.2 hnone).2
  · exact ⟨lt_of_le_of_ne hfresh.1 (Ne.symm h.1), hfresh.2⟩

lemma connect_of_not_connects (hfits : a.Fits c.epoll.fds) (h : ¬ a.Connects conf) :
    ∃ text fds, fds.watched = c.epoll.fds.watched ∧ (c.connect conf a).1 =
      { c with state := .error, lastError := text, epoll := { c.epoll with fds := fds },
               stopped := false } := by
  obtain ⟨text, fds, heq, hwatched⟩ := createSocketConnect_of_not_connects hfits h
  refine ⟨text, fds, hwatched, ?_⟩
  unfold connect
  rw [heq]

/-- Where the socket is connected, the event loop is what `start_handle` makes of it, or as it was
if `start_handle` throws. -/
lemma connect_of_connects (c : SinglethreadClient) (h : a.Connects conf) :
    let e : LightEpoll := { c.epoll with fds := c.epoll.fds.acquire a.socket }
    (c.connect conf a).1 =
      { c with state := .waiting,
               epoll := (ClientLightEpoll.startHandle e a.socket a.added).toOption.getD e,
               stopped := false } := by
  unfold connect
  rw [createSocketConnect_of_connects h]
  simp only
  split
  · next e he =>
    rw [he]
    rfl
  · next text he =>
    rw [he]
    rfl

/-- `start_handle` throws where there is a connection already; the new socket stays open. -/
lemma connect_of_busy (h : a.Connects conf) (hbusy : 0 < c.epoll.socket) :
    (c.connect conf a).1 =
      { c with state := .waiting,
               epoll := { c.epoll with fds := c.epoll.fds.acquire a.socket },
               stopped := false } := by
  rw [connect_of_connects c h, ClientLightEpoll.startHandle, LightEpoll.startHandle_of_busy
    (e := { c.epoll with fds := c.epoll.fds.acquire a.socket }) hbusy]
  rfl

lemma connect_of_added (h : a.Connects conf) (hfree : c.epoll.socket ≤ 0)
    (hadded : a.added = true) :
    (c.connect conf a).1 =
      { c with state := .waiting,
               epoll := LightEpoll.started
                 { c.epoll with fds := c.epoll.fds.acquire a.socket } a.socket true,
               stopped := false } := by
  rw [connect_of_connects c h, ClientLightEpoll.startHandle, LightEpoll.startHandle_of_started
    (e := { c.epoll with fds := c.epoll.fds.acquire a.socket }) hfree fun _ => hadded]
  rfl

/-- A failure of `add_fd` is silent. -/
lemma connect_of_not_added (h : a.Connects conf) (hfree : c.epoll.socket ≤ 0)
    (hadded : a.added = false) :
    (c.connect conf a).1 =
      { c with state := .waiting,
               epoll := { c.epoll with fds := c.epoll.fds.acquire a.socket },
               stopped := false } := by
  rw [connect_of_connects c h, ClientLightEpoll.startHandle, LightEpoll.startHandle_of_not_added
    (e := { c.epoll with fds := c.epoll.fds.acquire a.socket }) hfree rfl hadded]
  rfl

/-! ## The invariant -/

/-- How the two classes' fields hang together along a history that keeps the state sound. -/
structure Orderly (c : SinglethreadClient) : Prop where
  /-- `handleth_` is the only thread, and it runs unless it was told to stop. -/
  thread : c.epoll.handleth = none ∧ c.epoll.running = 0 ∧
      (c.epoll.needStop = false → c.epoll.threads = []) ∨
    c.epoll.handleth = some 0 ∧
      ∃ pc, c.epoll.threads = [pc] ∧ (c.epoll.needStop = false → pc ≠ .returned)
  socket : c.epoll.socket = -1 ∨ 0 < c.epoll.socket ∧
    c.epoll.socket ∈ c.epoll.fds.watched ∧ c.epoll.handleth = some 0
  waiting : c.state = .waiting → 0 < c.epoll.socket ∧ c.epoll.needStop = false
  stopping : c.stopping = true → c.epoll.needStop = true
  /-- A `disconnect()` that has returned leaves nothing behind but the stop flag. -/
  done : c.epoll.needStop = true → c.stopping = false →
    c.epoll.socket = -1 ∧ c.epoll.handleth = none
  stopped : c.stopped = true → c.stopping = false → c.epoll.handleth = none

lemma orderly_new : Orderly new where
  thread := Or.inl ⟨rfl, rfl, fun _ => rfl⟩
  socket := Or.inl rfl
  waiting := by intro h; cases h
  stopping := by intro h; cases h
  done := by intro h; cases h
  stopped := by intro h; cases h

/-- A thread that has not returned is the one of `handleth_`. -/
lemma Orderly.of_thread (h : Orderly c) {i : ℕ} {pc : ExecPc}
    (hi : c.epoll.threads[i]? = some pc) (hpc : pc ≠ .returned) :
    c.epoll.handleth = some 0 ∧ i = 0 ∧ c.epoll.threads = [pc] := by
  obtain ⟨-, hrunning, -⟩ | ⟨hhandle, pc', hthreads, -⟩ := h.thread
  · exact absurd (LightEpoll.eq_returned_of_running_eq_zero hrunning hi) hpc
  · rw [hthreads] at hi
    obtain rfl : i = 0 := by
      have hlt := List.getElem?_eq_some_iff.1 hi
      simpa using hlt.1
    obtain rfl : pc' = pc := by simpa using hi
    exact ⟨hhandle, rfl, hthreads⟩

/-- The thread moves on to `pc'`. -/
lemma Orderly.goto (h : Orderly c) {i : ℕ} {pc pc' : ExecPc}
    (hi : c.epoll.threads[i]? = some pc) (hpc : pc ≠ .returned)
    (hpc' : c.epoll.needStop = false → pc' ≠ .returned) :
    Orderly { c with epoll := c.epoll.goto i pc' } := by
  obtain ⟨hhandle, rfl, hthreads⟩ := h.of_thread hi hpc
  refine ⟨Or.inr ⟨hhandle, pc', ?_, hpc'⟩, h.socket, h.waiting, h.stopping, h.done, h.stopped⟩
  show c.epoll.threads.set 0 pc' = [pc']
  rw [hthreads]
  rfl

/-- The invariant gives what the state promises. -/
lemma Orderly.sound (h : Orderly c) : c.Sound := by
  intro _
  constructor
  · intro hwaiting
    obtain ⟨hsocket, hneed⟩ := h.waiting hwaiting
    obtain hnone | ⟨-, hwatched, hhandle⟩ := h.socket
    · exact absurd hsocket (by rw [hnone]; decide)
    obtain ⟨hno, -⟩ | ⟨-, pc, hthreads, hpc⟩ := h.thread
    · rw [hno] at hhandle
      cases hhandle
    · refine ⟨c.epoll.fds.watched_opened hwatched, hwatched, ?_, hneed⟩
      rw [LightEpoll.running_singleton hthreads, if_neg (hpc hneed)]
  · intro _ hstopped
    obtain ⟨-, hrunning, -⟩ | ⟨hhandle, -⟩ := h.thread
    · exact hrunning
    · rw [h.stopped hstopped ‹_›] at hhandle
      cases hhandle

/-! ## The steps -/

/-- What `on_epoll_event` does: nothing once the stop flag is up, and otherwise it may lose the
socket, with the state changed only for a hang-up. -/
lemma handle_cases {r : Report} {a : ReadAnswer} (h : c.handle r a = .ok c') :
    c' = c ∨ c.epoll.needStop = false ∧
      (r.events.closing = true ∧
          c' = { c with state := .disconnected, epoll := ClientLightEpoll.dropSocket c.epoll } ∨
        r.events.closing = false ∧ a.isEof = true ∧
          c' = { c with epoll := ClientLightEpoll.dropSocket c.epoll }) := by
  unfold handle ClientLightEpoll.onEpollEvent at h
  by_cases hneed : c.epoll.needStop = true
  · rw [if_pos hneed] at h
    cases h
    exact Or.inl rfl
  · rw [if_neg hneed] at h
    by_cases hclosing : r.events.closing = true
    · rw [if_pos hclosing] at h
      cases h
      exact Or.inr ⟨eq_false_of_ne_true hneed, Or.inl ⟨hclosing, rfl⟩⟩
    · rw [if_neg hclosing] at h
      cases a with
      | data chunk =>
        cases h
        exact Or.inl rfl
      | eof =>
        cases h
        exact Or.inr ⟨eq_false_of_ne_true hneed,
          Or.inr ⟨eq_false_of_ne_true hclosing, rfl, rfl⟩⟩
      | again => cases h
      | error => cases h

/-- The exits of `connect()` without a connection. -/
lemma Orderly.connect_of_not_connects (h : Orderly c) (hfits : a.Fits c.epoll.fds)
    (hconn : ¬ a.Connects conf) : Orderly (c.connect conf a).1 := by
  obtain ⟨text, fds, hwatched, heq⟩ := SinglethreadClient.connect_of_not_connects hfits hconn
  rw [heq]
  refine ⟨h.thread, ?_, (by intro hw; cases hw), h.stopping, h.done, (by intro hs; cases hs)⟩
  exact h.socket.imp_right fun hsock => ⟨hsock.1, hwatched.symm ▸ hsock.2.1, hsock.2.2⟩

/-- The exit of `start_handle` with a socket there already. -/
lemma Orderly.connect_of_busy (h : Orderly c) (hstopping : c.stopping = false)
    (hconn : a.Connects conf) (hbusy : 0 < c.epoll.socket) : Orderly (c.connect conf a).1 := by
  rw [SinglethreadClient.connect_of_busy hconn hbusy]
  refine ⟨h.thread, h.socket, fun _ => ⟨hbusy, ?_⟩, h.stopping, h.done, (by intro hs; cases hs)⟩
  by_contra hneed
  have hnone := (h.done (eq_true_of_ne_false hneed) hstopping).1
  exact absurd hbusy (by rw [hnone]; decide)

/-- With the stop flag down and no thread running, none was started. -/
lemma Orderly.threads_eq_nil (h : Orderly c) (hneed : c.epoll.needStop = false)
    (hrunning : c.epoll.running = 0) : c.epoll.threads = [] := by
  obtain ⟨-, -, hempty⟩ | ⟨-, pc, hthreads, hpc⟩ := h.thread
  · exact hempty hneed
  · rw [LightEpoll.running_singleton hthreads, if_neg (hpc hneed)] at hrunning
    cases hrunning

lemma Orderly.connect (h : Orderly c) (hstopping : c.stopping = false)
    (hfits : a.Fits c.epoll.fds) (hkeep : c.KeepsSound conf (.connect a)) :
    Orderly (c.connect conf a).1 := by
  by_cases hconn : a.Connects conf
  swap
  · exact h.connect_of_not_connects hfits hconn
  by_cases hbusy : 0 < c.epoll.socket
  · exact h.connect_of_busy hstopping hconn hbusy
  obtain ⟨hneed, hrunning, hadded⟩ := hkeep hconn (not_lt.1 hbusy)
  obtain ⟨hpos, -⟩ := fresh_of_connects hfits hconn
  rw [connect_of_added hconn (not_lt.1 hbusy) hadded]
  have hthreads := h.threads_eq_nil hneed hrunning
  have hwatched : a.socket ∈ ((c.epoll.fds.acquire a.socket).watch a.socket).watched :=
    FdTable.mem_watched_watch (FdTable.mem_opened_acquire.2 (Or.inl ⟨rfl, hpos.le⟩))
  have hhandle : some c.epoll.threads.length = some 0 := by rw [hthreads]; rfl
  constructor
  · refine Or.inr ⟨hhandle, .loopHead, ?_, fun _ => by simp⟩
    show c.epoll.threads ++ [.loopHead] = [.loopHead]
    rw [hthreads]
    rfl
  · exact Or.inr ⟨hpos, hwatched, hhandle⟩
  · exact fun _ => ⟨hpos, hneed⟩
  · intro hs
    exact absurd (hstopping.symm.trans hs) (by decide)
  · intro hs
    exact absurd (hneed.symm.trans hs) (by decide)
  · intro hs
    cases hs

lemma Orderly.disconnect (h : Orderly c) : Orderly c.disconnect := by
  refine ⟨?_, h.socket, (by intro hw; cases hw), fun _ => rfl, (by intro _ hs; cases hs),
    (by intro _ hs; cases hs)⟩
  obtain ⟨hno, hrunning, -⟩ | ⟨hhandle, pc, hthreads, -⟩ := h.thread
  · exact Or.inl ⟨hno, hrunning, (by intro hn; cases hn)⟩
  · exact Or.inr ⟨hhandle, pc, hthreads, (by intro hn; cases hn)⟩

lemma Orderly.joined (h : Orderly c) (hstopping : c.stopping = true)
    (hjoined : c.epoll.Joined) : Orderly c.joined := by
  have hneed := h.stopping hstopping
  have hrunning : c.epoll.running = 0 := by
    obtain ⟨-, hrunning, -⟩ | ⟨hhandle, pc, hthreads, -⟩ := h.thread
    · exact hrunning
    · have hreturned := hjoined 0 hhandle
      rw [hthreads] at hreturned
      rw [LightEpoll.running_singleton hthreads, if_pos (by simpa using hreturned)]
  refine ⟨Or.inl ⟨rfl, hrunning, ?_⟩, Or.inl rfl, ?_, (by intro hs; cases hs),
    fun _ _ => ⟨rfl, rfl⟩, fun _ _ => rfl⟩
  · intro hn
    exact absurd (hneed.symm.trans hn) (by decide)
  · intro hw
    exact absurd (hneed.symm.trans (h.waiting hw).2) (by decide)

/-- The event loop loses the socket while no `WAITING` is shown afterwards. -/
lemma Orderly.dropSocket (h : Orderly c) (hneed : c.epoll.needStop = false)
    {state : ClientState} (hstate : state ≠ .waiting) :
    Orderly { c with state := state, epoll := ClientLightEpoll.dropSocket c.epoll } := by
  refine ⟨h.thread, Or.inl rfl, fun hw => absurd hw hstate, h.stopping, ?_, h.stopped⟩
  intro hn
  exact absurd (hneed.symm.trans hn) (by decide)

lemma Orderly.handle (h : Orderly c) {i : ℕ} {r : Report} {rest : List Report} {a : ReadAnswer}
    (hkeep : c.KeepsSound conf (.handle i a)) (hi : c.epoll.report? i = some (r, rest))
    (hhandle : c.handle r a = .ok c') : Orderly c' := by
  obtain rfl | ⟨hneed, ⟨-, rfl⟩ | ⟨hclosing, heof, rfl⟩⟩ := handle_cases hhandle
  · exact h
  · exact h.dropSocket hneed (by decide)
  · exact h.dropSocket hneed (hkeep hneed ⟨heof, (r, rest), hi, by simp [hclosing]⟩)

lemma handle_threads {r : Report} {a : ReadAnswer} (h : c.handle r a = .ok c') :
    c'.epoll.threads = c.epoll.threads := by
  obtain rfl | ⟨-, ⟨-, rfl⟩ | ⟨-, -, rfl⟩⟩ := handle_cases h
  · rfl
  · rfl
  · rfl

/-- What `next` returns for the steps of the threads. -/
lemma next_handle {i : ℕ} {a : ReadAnswer} (h : c.next conf (.handle i a) = some c') :
    ∃ r rest d, c.epoll.report? i = some (r, rest) ∧ c.handle r a = .ok d ∧
      c' = { d with epoll := d.epoll.goto i (.after rest) } := by
  simp only [next] at h
  split at h
  · rename_i r rest hi
    split_ifs at h
    split at h
    · rename_i d hd
      cases h
      exact ⟨r, rest, d, hi, hd, rfl⟩
    · cases h
  · cases h

lemma preserves_orderly : Preserves (next conf) (KeepsSound conf) Orderly := by
  intro c act c' h hkeep hstep
  cases act with
  | connect a =>
    simp only [next] at hstep
    split_ifs at hstep with hc
    cases hstep
    exact h.connect hc.1 hc.2 hkeep
  | disconnect =>
    simp only [next] at hstep
    split_ifs at hstep
    cases hstep
    exact h.disconnect
  | joined =>
    simp only [next] at hstep
    split_ifs at hstep with hc
    cases hstep
    exact h.joined hc.1 hc.2
  | testStop i =>
    obtain ⟨e, he, rfl⟩ := Option.map_eq_some_iff.1 hstep
    obtain ⟨hi, rfl⟩ := LightEpoll.of_testStop he
    refine h.goto hi (by simp) fun hneed => ?_
    rw [hneed]
    simp
  | epollWait i reports =>
    obtain ⟨e, he, rfl⟩ := Option.map_eq_some_iff.1 hstep
    obtain ⟨hi, -, rfl⟩ := LightEpoll.of_epollWait he
    exact h.goto hi (by simp) fun _ => ExecPc.after_ne_returned reports
  | handle i a =>
    obtain ⟨r, rest, d, hi, hd, rfl⟩ := next_handle hstep
    have hthread : d.epoll.threads[i]? = some (.events r rest) := by
      rw [handle_threads hd]
      exact LightEpoll.report?_eq_some.1 hi
    exact (h.handle hkeep hi hd).goto hthread (by simp) fun _ => ExecPc.after_ne_returned rest

lemma not_connected_of_socket (h : c.epoll.socket = -1) : ¬ c.Connected := by
  rintro ⟨hopened, -⟩
  rw [h] at hopened
  exact FdTable.not_mem_opened_of_neg (by decide) hopened

/-- A `connect()` that gets a connection and leaves the state sound found a client as it was
before its first one. -/
lemma keepsSound_connect (h : Orderly c) (hstopping : c.stopping = false)
    (hsound : (c.connect conf a).1.Sound) : c.KeepsSound conf (.connect a) := by
  intro hconn hfree
  have hsocket : c.epoll.socket = -1 :=
    h.socket.resolve_right fun hs => absurd hs.1 (not_lt.2 hfree)
  cases hadded : a.added with
  | false =>
    rw [connect_of_not_added hconn hfree hadded] at hsound
    exact absurd ((hsound hstopping).1 rfl) (not_connected_of_socket hsocket)
  | true =>
    rw [connect_of_added hconn hfree hadded] at hsound
    obtain ⟨-, -, hrunning, hneed⟩ := (hsound hstopping).1 rfl
    have hcount : c.epoll.running + 1 = 1 :=
      (LightEpoll.running_started (e := { c.epoll with fds := c.epoll.fds.acquire a.socket })
        a.socket true).symm.trans hrunning
    exact ⟨hneed, by omega, rfl⟩

/-- A `recv` that returns `0` closes the socket, and the state stays sound only if it was not
`WAITING`. -/
lemma keepsSound_handle (h : Orderly c) {i : ℕ} {a : ReadAnswer}
    (hstep : c.next conf (.handle i a) = some c') (hsound : c'.Sound) :
    c.KeepsSound conf (.handle i a) := by
  rintro hneed ⟨heof, p, hp, hclosing⟩ hwaiting
  obtain ⟨r, rest, d, hi, hd, rfl⟩ := next_handle hstep
  obtain rfl : p = (r, rest) := by
    rw [Option.mem_def, hi] at hp
    exact (Option.some.inj hp).symm
  have hstopping : c.stopping = false := by
    by_contra hs
    exact absurd (hneed.symm.trans (h.stopping (eq_true_of_ne_false hs))) (by decide)
  have hdrop : d = { c with epoll := ClientLightEpoll.dropSocket c.epoll } := by
    cases a with
    | data chunk => cases heof
    | eof =>
      simp only [handle, ClientLightEpoll.onEpollEvent, hneed, hclosing] at hd
      cases hd
      rfl
    | again => cases heof
    | error => cases heof
  subst hdrop
  exact not_connected_of_socket rfl ((hsound hstopping).1 hwaiting)

/-- A step that leaves the state sound is one that keeps it so. -/
lemma keepsSound_of_sound {act : ClientAct} (h : Orderly c) (hstep : c.next conf act = some c')
    (hsound : c'.Sound) : c.KeepsSound conf act := by
  cases act with
  | connect a =>
    simp only [next] at hstep
    split_ifs at hstep with hc
    cases hstep
    exact keepsSound_connect h hc.1 hsound
  | handle i a => exact keepsSound_handle h hstep hsound
  | disconnect | joined | testStop i | epollWait i reports => trivial

/-- **The reported state of the client.**  Along a history of calls, reports and results the
state is sound throughout exactly if every `connect()` that gets a connection finds the client
as it was before its first one, every such `add_fd` succeeds, and no `recv` returns `0` in the
state `WAITING`. -/
theorem sound_throughout_iff (conf : ClientConfig) (acts : List ClientAct) :
    Throughout (next conf) Sound new acts ↔ Along (next conf) (KeepsSound conf) new acts :=
  preserves_orderly.throughout_iff (fun _ h => h.sound)
    (fun _ _ _ h hstep hsound => keepsSound_of_sound h hstep hsound) orderly_new

end Results

/-- A connection made on descriptor `3`. -/
def connectsOn3 : ConnectAnswers := ⟨3, true, true, true, true, true⟩

/-- `connect()`, `disconnect()` and `connect()` again: the thread started last sees the flag of
the first `disconnect()`. -/
theorem not_sound_after_reconnect :
    ¬ Throughout (next ⟨""⟩) Sound new
      [.connect connectsOn3, .testStop 0, .disconnect, .epollWait 0 [], .testStop 0, .joined,
        .connect connectsOn3] := by
  decide

end SinglethreadClient

end ClientServer.Netlib
