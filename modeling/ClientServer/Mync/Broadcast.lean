import ClientServer.Mync.Ownership

/-!
# A line of standard input for every client

The main object and those of the workers all register standard input, and any of them may get
the chunk.  `Objects` are the objects of a listening process with any clients in any of them;
every state of the process has such objects (`Server.roles_throughout`).  `Delivers` says that
the one that reads a chunk passes it to `send` once for every client of the process, and goes on.
-/

namespace ClientServer.Mync

open Std (ExtTreeMap)

/-! ## The objects -/

/-- What the objects of a listening process are built for: only the main one listens and has a
socket, and nobody pushes connections to it. -/
structure Roles {n : ℕ} (epoll : Agent n → Epoll) : Prop where
  listens : (epoll none).isListen = true
  queue : (epoll none).pendingNewSocks = []
  workers : ∀ w, (epoll (some w)).isListen = false ∧ (epoll (some w)).sockfd < 0

/-- The objects of a process with `n` workers, with any connections in their maps and queues. -/
structure Objects (n : ℕ) where
  epoll : Agent n → Epoll
  roles : Roles epoll

namespace Objects

variable {n : ℕ}

/-- A connection of the process: in the map or in the queue of one of the objects. -/
def Connected (o : Objects n) (fd : Fd) : Prop :=
  ∃ t, fd ∈ (o.epoll t).clients ∨ fd ∈ (o.epoll t).pendingNewSocks.map (·.1)

/-- Object `t` reads `chunk` from standard input: `handle_stdin` does not throw, sets no flag that
ends a loop, and passes the chunk to `send` once for every connection. -/
def Delivers (o : Objects n) (t : Agent n) (a : Answers) (chunk : Chunk bufSize) : Prop :=
  ∃ e calls, (o.epoll t).handleStdin { a with read := .data chunk } = .ok (e, calls) ∧
    e.stdinClosed = (o.epoll t).stdinClosed ∧ e.socketClosed = (o.epoll t).socketClosed ∧
    ∀ fd, o.Connected fd → calls.count (.send fd chunk.1) = 1

/-- A worker has no socket to send to: it throws. -/
lemma not_delivers_worker (o : Objects n) (w : Fin n) (a : Answers) (chunk : Chunk bufSize) :
    ¬ o.Delivers (some w) a chunk := by
  rintro ⟨e, calls, hok, -⟩
  obtain ⟨hlisten, hsockfd⟩ := o.roles.workers w
  have hno : ¬ (0 ≤ (o.epoll (some w)).sockfd ∧ a.sent = true) :=
    fun h => absurd h.1 (not_le.2 hsockfd)
  unfold Epoll.handleStdin at hok
  simp only [hlisten, if_neg hno] at hok
  cases hok

lemma handleStdin_main (o : Objects n) (a : Answers) (chunk : Chunk bufSize) :
    (o.epoll none).handleStdin { a with read := .data chunk } =
      .ok (o.epoll none, (o.epoll none).clients.keys.map (.send · chunk.1)) := by
  unfold Epoll.handleStdin
  simp only [o.roles.listens, if_true]

/-- Sends to the keys of a map, one each. -/
lemma count_send (m : ExtTreeMap Fd Stats) (fd : Fd) (chunk : Bytes) :
    (m.keys.map (Call.send · chunk)).count (.send fd chunk) = if fd ∈ m then 1 else 0 := by
  have hinj : Function.Injective (Call.send · chunk) := fun x y h => by
    cases h
    rfl
  rw [List.count_map_of_injective m.keys _ hinj fd]
  split_ifs with hmem
  · exact List.count_eq_one_of_mem m.nodup_keys (ExtTreeMap.mem_keys.2 hmem)
  · exact List.count_eq_zero_of_not_mem fun h => hmem (ExtTreeMap.mem_keys.1 h)

/-- The main object sends to its own connections. -/
lemma delivers_main_iff (o : Objects n) (a : Answers) (chunk : Chunk bufSize) :
    o.Delivers none a chunk ↔ ∀ fd, o.Connected fd → fd ∈ (o.epoll none).clients := by
  constructor
  · rintro ⟨e, calls, hok, -, -, hcount⟩ fd hfd
    rw [handleStdin_main] at hok
    cases hok
    have hone := hcount fd hfd
    rw [count_send] at hone
    by_contra hmem
    rw [if_neg hmem] at hone
    cases hone
  · intro h
    refine ⟨_, _, handleStdin_main o a chunk, rfl, rfl, fun fd hfd => ?_⟩
    rw [count_send, if_pos (h fd hfd)]

/-- **When a line reaches every client.**  Whatever the objects hold, a chunk is passed on once
for every client, and nobody throws, exactly if the main object reads it and every client of the
process is in its map. -/
theorem delivers_iff (o : Objects n) (t : Agent n) (a : Answers) (chunk : Chunk bufSize) :
    o.Delivers t a chunk ↔
      t = none ∧ ∀ fd, o.Connected fd → fd ∈ (o.epoll none).clients := by
  cases t with
  | none =>
    rw [delivers_main_iff]
    exact ⟨fun h => ⟨rfl, h⟩, fun h => h.2⟩
  | some w => exact iff_of_false (not_delivers_worker o w a chunk) fun h => by cases h.1

/-- One worker, which has the only client, on descriptor `10`. -/
def oneWorker : Objects 1 where
  epoll
    | none => Epoll.new 3 true true 4 5 6
    | some _ => { Epoll.new (-1) false false 7 8 9 with
        clients := (∅ : ExtTreeMap Fd Stats).insert 10 (Stats.accepted "" 0) }
  roles := ⟨rfl, rfl, fun _ => ⟨rfl, show (-1 : Fd) < 0 by decide⟩⟩

/-- The client of the worker gets a line from nobody: the worker throws, and the main object
sends to its own clients only. -/
theorem not_delivers_to_worker :
    ¬ oneWorker.Delivers (some 0) ⟨.again, true, true, true, 0⟩ ⟨[10], by decide⟩ ∧
      ¬ oneWorker.Delivers none ⟨.again, true, true, true, 0⟩ ⟨[10], by decide⟩ := by
  refine ⟨not_delivers_worker _ _ _ _, fun h => ?_⟩
  have hconnected : oneWorker.Connected 10 := ⟨some 0, Or.inl ExtTreeMap.mem_insert_self⟩
  exact ExtTreeMap.not_mem_empty ((delivers_main_iff _ _ _).1 h 10 hconnected)

end Objects

/-! ## The objects of a running process -/

section Process

variable {n : ℕ}

/-- What no step of a thread changes in its object, apart from the queue, which only pushes
fill. -/
structure Epoll.KeepsRole (e e' : Epoll) : Prop where
  listens : e'.isListen = e.isListen
  queue : e.pendingNewSocks = [] → e'.pendingNewSocks = []
  sockfd : e.sockfd < 0 → e'.sockfd < 0

lemma Epoll.KeepsRole.refl (e : Epoll) : e.KeepsRole e := ⟨rfl, id, id⟩

lemma Epoll.Handled.keepsRole {e e' : Epoll} {r : Report} {a : Answers} {calls : List Call}
    (h : e.Handled r a e' calls) : e.KeepsRole e' := by
  cases h with
  | drained => exact ⟨rfl, fun _ => rfl, id⟩
  | same | flags | ticked | counted | hungUp | emptied => exact ⟨rfl, id, id⟩

lemma Thread.keepsRole_stop (t : Thread n) (stage : Stage) :
    t.epoll.KeepsRole (t.stop stage).1.epoll := by
  cases stage with
  | socket =>
    refine ⟨rfl, id, fun h => ?_⟩
    show Epoll.released t.epoll.sockfd < 0
    unfold Epoll.released
    rw [if_neg (not_le.2 h)]
    exact h
  | clients fds => cases fds <;> exact ⟨rfl, id, id⟩
  | queue =>
    unfold stop
    cases hqueue : t.epoll.pendingNewSocks with
    | nil => exact .refl _
    | cons c rest => exact ⟨rfl, fun h => absurd (hqueue.symm.trans h) (List.cons_ne_nil _ _), id⟩
  | epfd | timer | wakeup | flags => exact ⟨rfl, id, id⟩

lemma Thread.Advances.keepsRole {t t' : Thread n} {shouldStop : Bool} {i : Input}
    {calls : List Call} (h : t.Advances shouldStop i t' calls) : t.epoll.KeepsRole t'.epoll := by
  cases h with
  | goes => exact .refl _
  | handles _ _ hhandled => exact hhandled.keepsRole
  | drains _ hqueue => exact ⟨rfl, fun h => absurd (hqueue.symm.trans h) (List.cons_ne_nil _ _), id⟩
  | adopts =>
    unfold Epoll.adopt
    split_ifs
    · exact ⟨rfl, id, id⟩
    · exact .refl _
  | stops => exact t.keepsRole_stop _

namespace Server

variable {s s' : Server n}

/-- The objects of the threads. -/
def epolls (s : Server n) (t : Agent n) : Epoll := (s.threads t).epoll

lemma Roles.of_keepsRole {epoll epoll' : Agent n → Epoll} (h : Roles epoll)
    (hkeeps : ∀ t, (epoll t).KeepsRole (epoll' t)) : Roles epoll' where
  listens := (hkeeps none).listens.trans h.listens
  queue := (hkeeps none).queue h.queue
  workers := fun w =>
    ⟨(hkeeps (some w)).listens.trans (h.workers w).1, (hkeeps (some w)).sockfd (h.workers w).2⟩

lemma epolls_update_keepsRole (s : Server n) {t : Agent n} {t' : Thread n}
    (h : (s.threads t).epoll.KeepsRole t'.epoll) (a : Agent n) :
    (s.threads a).epoll.KeepsRole (Function.update s.threads t t' a).epoll := by
  by_cases ha : a = t
  · subst ha
    rw [Function.update_self]
    exact h
  · rw [Function.update_of_ne ha]
    exact .refl _

/-- A push fills the queue of a worker. -/
lemma Roles.push (h : Roles s.epolls) (w : Fin n) (fd : Fd) (st : Stats) :
    Roles (s.push w fd st).epolls where
  listens := by
    unfold epolls
    rw [threads_push_of_ne s fd st (by simp)]
    exact h.listens
  queue := by
    unfold epolls
    rw [threads_push_of_ne s fd st (by simp)]
    exact h.queue
  workers := by
    intro v
    unfold epolls
    by_cases hv : v = w
    · subst hv
      rw [threads_push_self]
      exact h.workers v
    · rw [threads_push_of_ne s fd st (by simpa using hv)]
      exact h.workers v

lemma Roles.goto (h : Roles s.epolls) (t : Agent n) (pc : Pc n) : Roles (s.goto t pc).epolls :=
  Roles.of_keepsRole h (s.epolls_update_keepsRole (.refl _))

lemma preserves_roles : Preserves next (fun _ _ => True) fun s : Server n => Roles s.epolls := by
  intro s act s' h _ hstep
  obtain ⟨calls, hsteps⟩ := steps_of_next hstep
  cases hsteps with
  | signal | abort => exact h
  | wait | accept | acceptedAll | compare | choose | destroy => exact Roles.goto h _ _
  | push => exact Roles.push (Roles.goto h _ _) _ _ _
  | advance hadv => exact Roles.of_keepsRole h (s.epolls_update_keepsRole hadv.keepsRole)

/-- The objects keep their roles in every run. -/
theorem roles_throughout (setup : Setup n) (acts : List (ServerAct n)) :
    Throughout next (fun s => Roles s.epolls) (new setup) acts :=
  preserves_roles.throughout (fun _ h => h)
    ⟨rfl, rfl, fun _ => ⟨rfl, show (-1 : Fd) < 0 by decide⟩⟩
    (along_of_forall (fun _ _ => trivial) _ acts)

end Server

end Process

end ClientServer.Mync
