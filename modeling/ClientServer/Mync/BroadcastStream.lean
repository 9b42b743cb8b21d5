import ClientServer.Library.Pipe
import ClientServer.Library.Runs
import ClientServer.Mync.Epoll

/-!
# What the clients of a broadcast get

A listening `Epoll` with clients of its own passes every chunk of standard input to `send` once
for each of them, on sockets that do not block.  `Broadcast` adds to the object one pipe for each
client: what was read since the client was added, and what its socket has accepted of it.

`handle_stdin` does not look at how much a `send` has taken, so what was not taken is lost, and
the next chunk follows behind the gap.  `gapless_throughout_iff` gives the runs in which that
never shows.

The statistics messages of `handle_timer` go to the same sockets; a run consists of the calls of
`handle_stdin` and of what adds and removes clients.
-/

namespace ClientServer.Mync

/-- A listening object, and for each client the stream it gets. -/
structure Broadcast where
  epoll : Epoll
  pipe : Fd → Pipe UInt8

namespace Broadcast

/-- What happens to the object. -/
inductive Action
  /-- A report on standard input; of a chunk the socket of `fd` takes at most `taken fd` bytes. -/
  | stdin (a : Answers) (taken : Fd → ℕ)
  /-- A turn of `accept_connections` that leaves the socket here. -/
  | adopt (fd : Fd) (st : Stats) (added : Bool)
  /-- A hang-up, or a `recv` that returned no bytes. -/
  | remove (fd : Fd)

/-- The object after its constructor. -/
def new (sock : Fd) (showTimerStats : Bool) (epfd wakeup timer : Fd) : Broadcast :=
  ⟨.new sock true showTimerStats epfd wakeup timer, fun _ => .empty⟩

/-- What the socket of `fd` accepts during these calls. -/
def accepted (taken : Fd → ℕ) (fd : Fd) (calls : List Call) : Bytes :=
  calls.flatMap fun
    | .send fd' bytes => if fd' = fd then bytes.take (taken fd) else []
    | _ => []

/-- The clients change; whoever was none has an empty stream. -/
def become (s : Broadcast) (e : Epoll) : Broadcast :=
  ⟨e, fun fd => if fd ∈ s.epoll.clients then s.pipe fd else .empty⟩

/-- One action.  A `read` that fails throws, and ends the run. -/
def step (s : Broadcast) : Action → Option Broadcast
  | .stdin a taken =>
    match s.epoll.handleStdin a with
    | .ok (e, calls) =>
      some ⟨e, fun fd => ((s.pipe fd).feed a.read.bytes).deliver (accepted taken fd calls)⟩
    | .error _ => none
  | .adopt fd st added => some (s.become (s.epoll.adopt fd st added).1)
  | .remove fd => some (s.become (s.epoll.removeClient fd).1)

/-- What every client has got is a prefix of what was read since it was added. -/
def Gapless (s : Broadcast) : Prop := ∀ fd ∈ s.epoll.clients, (s.pipe fd).InOrder

/-- No byte follows a gap: nothing is missing before the chunk, or the socket takes nothing of
it, or what it takes coincides with what is missing. -/
def Continues (p : Pipe UInt8) (chunk : Bytes) (k : ℕ) : Prop :=
  p.missing = [] ∨ k = 0 ∨ chunk.take k <+: p.missing ++ chunk

/-- A chunk continues the stream of every client. -/
def TakesInTurn (s : Broadcast) : Action → Prop
  | .stdin a taken => ∀ fd ∈ s.epoll.clients, Continues (s.pipe fd) a.read.bytes (taken fd)
  | .adopt _ _ _ => True
  | .remove _ => True

/-! ## One chunk -/

lemma inOrder_feed_deliver_iff_continues {p : Pipe UInt8} (h : p.InOrder) (chunk : Bytes)
    (k : ℕ) : ((p.feed chunk).deliver (chunk.take k)).InOrder ↔ Continues p chunk k := by
  rw [Pipe.inOrder_feed_deliver_iff h]
  constructor
  · exact fun hcontinues => .inr (.inr hcontinues)
  · rintro (hnil | rfl | hcontinues)
    · rw [hnil, List.nil_append]
      exact List.take_prefix k chunk
    · rw [List.take_zero]
      exact List.nil_prefix
    · exact hcontinues

/-- Of one `send` for each of these descriptors, the socket of `fd` accepts its own. -/
lemma accepted_map_send (taken : Fd → ℕ) {fd : Fd} (chunk : Bytes) {fds : List Fd}
    (hnodup : fds.Nodup) (hmem : fd ∈ fds) :
    accepted taken fd (fds.map (.send · chunk)) = chunk.take (taken fd) := by
  have hother : ∀ l : List Fd, fd ∉ l → accepted taken fd (l.map (.send · chunk)) = [] := by
    intro l hl
    refine List.flatMap_eq_nil_iff.mpr fun c hc => ?_
    obtain ⟨fd', hfd', rfl⟩ := List.mem_map.mp hc
    refine if_neg ?_
    rintro rfl
    exact hl hfd'
  induction fds with
  | nil => cases hmem
  | cons fd' fds ih =>
    obtain ⟨hnotin, hnodup⟩ := List.nodup_cons.mp hnodup
    rw [List.map_cons, accepted, List.flatMap_cons, ← accepted]
    rcases List.mem_cons.mp hmem with rfl | hmem
    · rw [hother fds hnotin, List.append_nil]
      exact if_pos rfl
    · rw [ih hnodup hmem]
      have hne : fd' ≠ fd := by
        rintro rfl
        exact hnotin hmem
      simp only [if_neg hne, List.nil_append]

/-- A listening object passes the chunk on to every client. -/
lemma handleStdin_listening {e e' : Epoll} {a : Answers} {calls : List Call}
    (hlisten : e.isListen = true) (h : e.handleStdin a = .ok (e', calls)) :
    e'.isListen = true ∧ e'.clients = e.clients ∧ ∀ (taken : Fd → ℕ), ∀ fd ∈ e.clients,
      accepted taken fd calls = a.read.bytes.take (taken fd) := by
  unfold Epoll.handleStdin at h
  split at h
  case h_1 chunk hread =>
    rw [if_pos hlisten] at h
    cases h
    refine ⟨hlisten, rfl, fun taken fd hfd => ?_⟩
    rw [hread]
    exact accepted_map_send taken chunk.1 e.clients.nodup_keys (Std.ExtTreeMap.mem_keys.2 hfd)
  case h_2 hread =>
    cases h
    refine ⟨hlisten, rfl, fun taken fd _ => ?_⟩
    rw [hread]
    exact List.take_nil.symm
  all_goals cases h

/-- **What a report on standard input does to the streams.** -/
lemma stdin_cases {s s' : Broadcast} {a : Answers} {taken : Fd → ℕ}
    (hlisten : s.epoll.isListen = true) (h : s.step (.stdin a taken) = some s') :
    s'.epoll.isListen = true ∧ s'.epoll.clients = s.epoll.clients ∧
      ∀ fd ∈ s.epoll.clients,
        s'.pipe fd = ((s.pipe fd).feed a.read.bytes).deliver (a.read.bytes.take (taken fd)) := by
  simp only [step] at h
  split at h
  case h_1 e calls hok =>
    cases h
    obtain ⟨hlisten', hclients, haccepted⟩ := handleStdin_listening hlisten hok
    refine ⟨hlisten', hclients, fun fd hfd => ?_⟩
    rw [← haccepted taken fd hfd]
  case h_2 => cases h

/-! ## Runs -/

/-- The object listens, and no client has a gap. -/
structure Streaming (s : Broadcast) : Prop where
  listens : s.epoll.isListen = true
  gapless : s.Gapless

lemma streaming_new (sock : Fd) (showTimerStats : Bool) (epfd wakeup timer : Fd) :
    (new sock showTimerStats epfd wakeup timer).Streaming :=
  ⟨rfl, fun _ _ => Pipe.inOrder_empty⟩

/-- Only the clients change, and the streams of those that stay are kept. -/
lemma Streaming.become {s : Broadcast} (h : s.Streaming) {e : Epoll}
    (hlisten : e.isListen = s.epoll.isListen) : (s.become e).Streaming := by
  refine ⟨hlisten.trans h.listens, fun fd _ => ?_⟩
  simp only [Broadcast.become]
  split_ifs with hmem
  · exact h.gapless fd hmem
  · exact Pipe.inOrder_empty

lemma isListen_adopt (e : Epoll) (fd : Fd) (st : Stats) (added : Bool) :
    (e.adopt fd st added).1.isListen = e.isListen := by
  unfold Epoll.adopt
  split_ifs <;> rfl

/-- A chunk keeps the streams gapless exactly if it continues them. -/
lemma gapless_stdin_iff {s s' : Broadcast} {a : Answers} {taken : Fd → ℕ} (hs : s.Streaming)
    (h : s.step (.stdin a taken) = some s') :
    s'.Gapless ↔ s.TakesInTurn (.stdin a taken) := by
  obtain ⟨-, hclients, hpipe⟩ := stdin_cases hs.listens h
  rw [Gapless, hclients]
  refine forall₂_congr fun fd hfd => ?_
  rw [hpipe fd hfd, inOrder_feed_deliver_iff_continues (hs.gapless fd hfd)]

lemma preserves_streaming : Preserves step TakesInTurn Streaming := by
  intro s act s' hs hturn h
  cases act with
  | stdin a taken =>
    exact ⟨(stdin_cases hs.listens h).1, (gapless_stdin_iff hs h).mpr hturn⟩
  | adopt fd st added =>
    cases h
    exact hs.become (isListen_adopt _ fd st added)
  | remove fd =>
    cases h
    exact hs.become rfl

/-- **When a broadcast has no gaps.**  In every run, every client that stays has at every moment
got a prefix of the chunks read since it was added, exactly if no chunk follows a gap. -/
theorem gapless_throughout_iff (sock : Fd) (showTimerStats : Bool) (epfd wakeup timer : Fd)
    (acts : List Action) :
    Throughout step Gapless (new sock showTimerStats epfd wakeup timer) acts ↔
      Along step TakesInTurn (new sock showTimerStats epfd wakeup timer) acts := by
  refine preserves_streaming.throughout_iff (fun s hs => hs.gapless) ?_ (streaming_new _ _ _ _ _)
  intro s act s' hs h hgapless
  cases act with
  | stdin a taken => exact (gapless_stdin_iff hs h).mp hgapless
  | adopt fd st added => trivial
  | remove fd => trivial

/-- A chunk that standard input delivers. -/
def chunkOf (chunk : Chunk bufSize) : Answers := ⟨.data chunk, true, true, true, 0⟩

/-- A full socket loses a first chunk and takes the second, which follows the gap. -/
theorem not_gapless_full_socket :
    ¬ ∀ (sock : Fd) (showTimerStats : Bool) (epfd wakeup timer : Fd) (acts : List Action),
      Throughout step Gapless (new sock showTimerStats epfd wakeup timer) acts := by
  intro hall
  obtain ⟨-, hrun⟩ := hall 3 false 4 5 6 [.adopt 7 (Stats.new 0) true,
    .stdin (chunkOf ⟨[1], by decide⟩) (fun _ => 0), .stdin (chunkOf ⟨[2], by decide⟩) (fun _ => 1)]
  obtain ⟨-, hrun⟩ := hrun _ rfl
  obtain ⟨-, hrun⟩ := hrun _ rfl
  have hmem : (7 : Fd) ∈ ((new 3 false 4 5 6).epoll.adopt 7 (Stats.new 0) true).1.clients :=
    Std.ExtTreeMap.mem_insertIfNew_self
  have hgapless := hrun _ rfl 7 hmem
  exact absurd hgapless (by decide)

end Broadcast

end ClientServer.Mync
