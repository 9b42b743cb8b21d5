import ClientServer.Mync.Ownership

/-!
# Workers that end

A worker deletes its object on its own thread once its `exec` has returned, while `subepolls_`
of the main object keeps the pointer.  The main thread uses the pointers when it places a
connection (`balance_socket`) and when it prints statistics (`show_shared_stats`).

So the pointers are good as long as it does neither beside a worker whose `fullstop` has emptied
its queue, which nothing in the program sees to: a worker leaves `exec` when it reads the end of
standard input, which every object has registered, or when it sees the stop flag, and the main
thread may be in the middle of a batch then.
-/

namespace ClientServer.Mync

/-- A connection was returned. -/
def AcceptAnswer.isAccepted : AcceptAnswer → Bool
  | .accepted .. => true
  | _ => false

namespace Pc

variable {n : ℕ}

/-- The thread's `fullstop` has emptied the pending queue. -/
def emptied : Pc n → Bool
  | .stopping .epfd => true
  | .stopping .timer => true
  | .stopping .wakeup => true
  | .stopping .flags => true
  | .deleted => true
  | _ => false

/-- The thread is in the accept loop. -/
def accepts : Pc n → Bool
  | .accepting _ => true
  | .adopting .. => true
  | .choosing .. => true
  | .pushing .. => true
  | .waking .. => true
  | _ => false

/-- The thread is in `balance_socket` or in `show_shared_stats`. -/
def usesWorkers : Pc n → Bool
  | .choosing .. => true
  | .pushing .. => true
  | .waking .. => true
  | .counting .. => true
  | .printing .. => true
  | _ => false

/-- The workers whose methods the thread is about to call, or is inside of: `count_clients` in a
comparison of `std::min_element` and in `show_shared_stats`, `push_external_socket`, and
`print_clients_stats`. -/
def Calls : Pc n → Fin n → Prop
  | .choosing _ _ best k _, w => k < n ∧ (w = best ∨ w.val = k)
  | .pushing _ _ v _, w => w = v
  | .waking v _, w => w = v
  | .counting k _, w => w.val = k
  | .printing k _, w => w.val = k
  | _, _ => False

instance : ∀ pc : Pc n, DecidablePred pc.Calls
  | .choosing _ _ best k _ => fun w => inferInstanceAs (Decidable (k < n ∧ (w = best ∨ w.val = k)))
  | .pushing _ _ v _ => fun w => inferInstanceAs (Decidable (w = v))
  | .waking v _ => fun w => inferInstanceAs (Decidable (w = v))
  | .counting k _ => fun w => inferInstanceAs (Decidable (w.val = k))
  | .printing k _ => fun w => inferInstanceAs (Decidable (w.val = k))
  | .loopHead | .waiting | .events _ | .draining _ | .accepting _ | .adopting .. | .returned
  | .stopping _ | .deleted => fun _ => inferInstanceAs (Decidable False)

lemma usesWorkers_of_calls {pc : Pc n} {w : Fin n} (h : pc.Calls w) : pc.usesWorkers = true := by
  unfold Calls at h
  split at h <;> first | rfl | cases h

end Pc

/-! ## One thread -/

namespace Thread

variable {n : ℕ} {t t' : Thread n} {shouldStop : Bool} {i : Input} {calls : List Call}

/-- With its next step the thread gets past the queue in `fullstop`. -/
def EmptiesQueue (t : Thread n) : Prop :=
  t.pc = .stopping .queue ∧ t.epoll.pendingNewSocks = []

instance (t : Thread n) : Decidable t.EmptiesQueue := inferInstanceAs (Decidable (_ ∧ _))

/-- With its next step the thread begins to use workers: `accept4` returns a connection, or the
timer has statistics printed. -/
def begins (t : Thread n) (i : Input) : Bool :=
  match t.pc with
  | .accepting _ => i.accept.isAccepted
  | .events (r :: _) =>
    decide (t.epoll.dispatch r = .timer) && i.expired && t.epoll.showTimerStats
  | _ => false

/-! ### How far `fullstop` has come -/

lemma emptied_after (e : Epoll) (r : Report) (a : Answers) (rest : List Report) :
    (Pc.after e r a rest : Pc n).emptied = false := by
  rcases Pc.after_cases e r a rest with h | ⟨-, h⟩ | ⟨-, h⟩ <;> rw [h] <;> rfl

lemma Goes.emptied {pc : Pc n} (h : t.Goes shouldStop pc) : pc.emptied = t.pc.emptied := by
  cases h with
  | stays => rfl
  | counts hpc | prints hpc =>
    rw [hpc]
    split_ifs <;> rfl
  | ends hpc | loops hpc | again hpc | locks hpc | unlocks hpc | woken hpc =>
    rw [hpc]
    rfl

lemma emptied_stop {stage : Stage} (hpc : t.pc = .stopping stage) :
    (t.stop stage).1.pc.emptied = t.pc.emptied ∨ t.EmptiesQueue := by
  rw [hpc]
  cases stage with
  | clients fds => cases fds <;> exact Or.inl rfl
  | queue =>
    unfold stop
    cases hqueue : t.epoll.pendingNewSocks with
    | nil => exact Or.inr ⟨hpc, hqueue⟩
    | cons c rest => exact Or.inl rfl
  | socket | epfd | timer | wakeup | flags => exact Or.inl rfl

/-- A thread gets past the queue in one way only, and never comes back. -/
lemma Advances.emptied (h : t.Advances shouldStop i t' calls) :
    t'.pc.emptied = t.pc.emptied ∨ t.EmptiesQueue := by
  cases h with
  | goes h => exact Or.inl h.emptied
  | handles hpc =>
    rw [hpc]
    exact Or.inl (emptied_after _ _ _ _)
  | drains hpc => exact Or.inl rfl
  | adopts hpc =>
    rw [hpc]
    exact Or.inl rfl
  | stops hpc => exact emptied_stop hpc

/-- A queue that `fullstop` has emptied is empty. -/
def QueueEmptied (t : Thread n) : Prop := t.pc.emptied = true → t.epoll.pendingNewSocks = []

instance (t : Thread n) : Decidable t.QueueEmptied := inferInstanceAs (Decidable (_ → _))

lemma queueEmptied_of_not_emptied (h : t.pc.emptied = false) : t.QueueEmptied := by
  intro hemptied
  rw [h] at hemptied
  cases hemptied

lemma queueEmptied_stop {stage : Stage} (hpc : t.pc = .stopping stage) (ht : t.QueueEmptied) :
    (t.stop stage).1.QueueEmptied := by
  unfold QueueEmptied at ht
  rw [hpc] at ht
  cases stage with
  | socket => exact queueEmptied_of_not_emptied rfl
  | clients fds => cases fds <;> exact queueEmptied_of_not_emptied rfl
  | queue =>
    unfold stop
    cases hqueue : t.epoll.pendingNewSocks with
    | nil => exact fun _ => hqueue
    | cons c rest => exact queueEmptied_of_not_emptied rfl
  | epfd | timer | wakeup | flags => exact fun _ => ht rfl

lemma Advances.queueEmptied (h : t.Advances shouldStop i t' calls) (ht : t.QueueEmptied) :
    t'.QueueEmptied := by
  cases h with
  | goes h =>
    intro hemptied
    rw [h.emptied] at hemptied
    exact ht hemptied
  | handles => exact queueEmptied_of_not_emptied (emptied_after _ _ _ _)
  | drains hpc =>
    refine queueEmptied_of_not_emptied ?_
    dsimp only
    rw [hpc]
    rfl
  | adopts => exact queueEmptied_of_not_emptied rfl
  | stops hpc => exact queueEmptied_stop hpc ht

/-! ### Who uses workers -/

lemma Goes.usesWorkers {pc : Pc n} (h : t.Goes shouldStop pc) (huses : pc.usesWorkers = true) :
    t.pc.usesWorkers = true := by
  cases h with
  | stays => exact huses
  | counts hpc | prints hpc =>
    rw [hpc]
    rfl
  | ends | loops | again | locks | unlocks | woken => cases huses

lemma stop_not_usesWorkers (stage : Stage) : (t.stop stage).1.pc.usesWorkers = false := by
  rcases t.pc_stop stage with ⟨_, h⟩ | h <;> rw [h] <;> rfl

/-- After a report, statistics are printed only when a timer tick asks for it. -/
lemma begins_of_after {r : Report} {rest : List Report} (hpc : t.pc = .events (r :: rest))
    (huses : (Pc.after t.epoll r i.toAnswers rest : Pc n).usesWorkers = true) :
    t.begins i = true := by
  rcases Pc.after_cases t.epoll r i.toAnswers rest with h | ⟨hprints, h⟩ | ⟨-, h⟩
  · rw [h] at huses
    cases huses
  · unfold begins
    rw [hpc]
    simpa [and_assoc] using hprints
  · rw [h] at huses
    cases huses

lemma Advances.usesWorkers (h : t.Advances shouldStop i t' calls)
    (huses : t'.pc.usesWorkers = true) : t.pc.usesWorkers = true ∨ t.begins i = true := by
  cases h with
  | goes h => exact Or.inl (h.usesWorkers huses)
  | handles hpc => exact Or.inr (begins_of_after hpc huses)
  | drains hpc => exact Or.inl huses
  | adopts hpc => cases huses
  | stops hpc =>
    rw [stop_not_usesWorkers] at huses
    cases huses

/-! ### Who accepts -/

lemma accepts_after (e : Epoll) (r : Report) (a : Answers) (rest : List Report)
    (hlisten : e.isListen = false) : (Pc.after e r a rest : Pc n).accepts = false := by
  rcases Pc.after_cases e r a rest with h | ⟨-, h⟩ | ⟨hlistens, -⟩
  · rw [h]
    rfl
  · rw [h]
    rfl
  · rw [hlisten] at hlistens
    cases hlistens

lemma Goes.accepts {pc : Pc n} (h : t.Goes shouldStop pc) (hpc : t.pc.accepts = false) :
    pc.accepts = false := by
  cases h with
  | stays => exact hpc
  | woken h =>
    rw [h] at hpc
    cases hpc
  | counts h | prints h => split_ifs <;> rfl
  | ends | loops | again | locks | unlocks => rfl

lemma isListen_of_handled {e e' : Epoll} {r : Report} {a : Answers}
    (h : e.Handled r a e' calls) : e'.isListen = e.isListen := by
  cases h <;> rfl

lemma isListen_stop (stage : Stage) : (t.stop stage).1.epoll.isListen = t.epoll.isListen := by
  unfold stop
  split
  case h_4 => split <;> rfl
  all_goals rfl

lemma accepts_stop (stage : Stage) : (t.stop stage).1.pc.accepts = false := by
  rcases t.pc_stop stage with ⟨_, h⟩ | h <;> rw [h] <;> rfl

/-- A thread that does not listen. -/
def Serves (t : Thread n) : Prop := t.epoll.isListen = false ∧ t.pc.accepts = false

lemma Advances.serves (h : t.Advances shouldStop i t' calls) (ht : t.Serves) : t'.Serves := by
  obtain ⟨hlisten, haccepts⟩ := ht
  cases h with
  | goes h => exact ⟨hlisten, h.accepts haccepts⟩
  | handles hpc _ h =>
    exact ⟨(isListen_of_handled h).trans hlisten, accepts_after _ _ _ _ hlisten⟩
  | drains hpc => exact ⟨hlisten, haccepts⟩
  | adopts hpc =>
    rw [hpc] at haccepts
    cases haccepts
  | stops hpc => exact ⟨(isListen_stop _).trans hlisten, accepts_stop _⟩

end Thread

/-! ## The process -/

namespace Server

variable {n : ℕ} {s s' : Server n} {t : Agent n} {a : ServerAct n} {calls : List Call}

/-- The main thread begins to place a connection or to print statistics only when no worker's
`fullstop` has emptied its queue, and no worker's `fullstop` gets so far while it is at it. -/
def WorkersOutlast (s : Server n) : ServerAct n → Prop
  | .run none i => (s.threads none).begins i → ∀ w, (s.threads (some w)).pc.emptied = false
  | .run (some w) _ =>
    (s.threads (some w)).EmptiesQueue → (s.threads none).pc.usesWorkers = false
  | _ => True

instance (s : Server n) : DecidablePred s.WorkersOutlast := fun
  | .run none i => inferInstanceAs (Decidable ((s.threads none).begins i → _))
  | .run (some w) _ => inferInstanceAs (Decidable ((s.threads (some w)).EmptiesQueue → _))
  | .signal | .wait _ _ => inferInstanceAs (Decidable True)

/-- The main thread is not about to use a worker that is deleted, and no connection is in a queue
that the worker's `fullstop` has been through. -/
def UsesLiving (s : Server n) : Prop :=
  (∀ w, (s.threads none).pc.Calls w → (s.threads (some w)).pc ≠ .deleted) ∧
    ∀ w, (s.threads (some w)).QueueEmptied

instance : DecidablePred (UsesLiving (n := n)) := fun _ => inferInstanceAs (Decidable (_ ∧ _))

/-- The workers serve while the main thread uses them. -/
structure Serving (s : Server n) : Prop where
  outlast : (s.threads none).pc.usesWorkers = true → ∀ w, (s.threads (some w)).pc.emptied = false
  serves : ∀ w, (s.threads (some w)).Serves
  emptied : ∀ w, (s.threads (some w)).QueueEmptied

lemma Serving.usesLiving (h : s.Serving) : s.UsesLiving := by
  refine ⟨fun w hcalls hdeleted => ?_, h.emptied⟩
  have houtlast := h.outlast (Pc.usesWorkers_of_calls hcalls) w
  rw [hdeleted] at houtlast
  cases houtlast

/-- A step of the main thread. -/
lemma Serving.update_main (h : s.Serving) {t' : Thread n}
    (huses : t'.pc.usesWorkers = true → ∀ w, (s.threads (some w)).pc.emptied = false)
    (hthreads : s'.threads = Function.update s.threads none t') : s'.Serving := by
  have hsome (w : Fin n) : s'.threads (some w) = s.threads (some w) := by
    rw [hthreads, Function.update_of_ne (Option.some_ne_none w)]
  refine ⟨fun hmain w => ?_, fun w => ?_, fun w => ?_⟩ <;> rw [hsome]
  · rw [hthreads, Function.update_self] at hmain
    exact huses hmain w
  · exact h.serves w
  · exact h.emptied w

/-- A step of a worker. -/
lemma Serving.update_worker (h : s.Serving) {w : Fin n} {t' : Thread n} (hserves : t'.Serves)
    (hemptied : t'.QueueEmptied)
    (houtlast : (s.threads none).pc.usesWorkers = true → t'.pc.emptied = false)
    (hthreads : s'.threads = Function.update s.threads (some w) t') : s'.Serving := by
  have hnone : s'.threads none = s.threads none := by
    rw [hthreads, Function.update_of_ne (Option.some_ne_none w).symm]
  have hworker (P : Thread n → Prop) (ht' : P t') (hP : ∀ v, P (s.threads (some v))) (v : Fin n) :
      P (s'.threads (some v)) := by
    by_cases hv : v = w
    · subst hv
      rw [hthreads, Function.update_self]
      exact ht'
    · rw [hthreads, Function.update_of_ne (by simpa using hv)]
      exact hP v
  refine ⟨fun hmain => ?_, hworker _ hserves h.serves, hworker _ hemptied h.emptied⟩
  rw [hnone] at hmain
  exact hworker (fun t => t.pc.emptied = false) (houtlast hmain) (h.outlast hmain)

/-- Only the main thread accepts. -/
lemma Serving.eq_none (h : s.Serving) (haccepts : (s.threads t).pc.accepts = true) : t = none := by
  cases t with
  | none => rfl
  | some w =>
    rw [(h.serves w).2] at haccepts
    cases haccepts

/-- A worker that goes to a point before the end of its queue. -/
lemma Serving.goto_worker (h : s.Serving) {w : Fin n} {pc : Pc n} (haccepts : pc.accepts = false)
    (hemptied : pc.emptied = false) : (s.goto (some w) pc).Serving := by
  have hserves : ({ s.threads (some w) with pc := pc } : Thread n).Serves :=
    ⟨(h.serves w).1, haccepts⟩
  exact h.update_worker hserves (Thread.queueEmptied_of_not_emptied hemptied)
    (fun _ => hemptied) rfl

/-- A push to a worker, whose queue is not emptied yet. -/
lemma Serving.push (h : s.Serving) (huses : (s.threads none).pc.usesWorkers = true) (w : Fin n)
    (fd : Fd) (st : Stats) : (s.push w fd st).Serving := by
  let pushed : Thread n :=
    { s.threads (some w) with epoll := (s.threads (some w)).epoll.pushExternalSocket fd st }
  have hserves : pushed.Serves := h.serves w
  have hemptied : pushed.pc.emptied = false := h.outlast huses w
  exact h.update_worker hserves (Thread.queueEmptied_of_not_emptied hemptied)
    (fun _ => hemptied) rfl

/-- The step lemma. -/
lemma Serving.steps (h : s.Serving) (houtlast : s.WorkersOutlast a) (hsteps : s.Steps a s' calls) :
    s'.Serving := by
  cases hsteps with
  | signal => exact ⟨h.outlast, h.serves, h.emptied⟩
  | abort => exact ⟨h.outlast, h.serves, h.emptied⟩
  | @wait t batch hreturns =>
    cases t with
    | none => exact h.update_main (fun huses => by cases huses) rfl
    | some w => exact h.goto_worker rfl rfl
  | @accept t i fd ip now rest hpc haccept hfree =>
    obtain rfl := h.eq_none (by rw [hpc]; rfl)
    have hbegins : (s.threads none).begins i = true := by
      unfold Thread.begins
      rw [hpc, haccept]
      rfl
    exact h.update_main (fun _ => houtlast hbegins) rfl
  | @acceptedAll t i rest hpc =>
    obtain rfl := h.eq_none (by rw [hpc]; rfl)
    exact h.update_main (fun huses => by cases huses) rfl
  | @compare t i fd st best k rest hpc hk =>
    obtain rfl := h.eq_none (by rw [hpc]; rfl)
    exact h.update_main (fun _ => h.outlast (by rw [hpc]; rfl)) rfl
  | @choose t i fd st best k rest hpc hk =>
    obtain rfl := h.eq_none (by rw [hpc]; rfl)
    exact h.update_main (fun _ => h.outlast (by rw [hpc]; rfl)) rfl
  | @push t i fd st w rest hpc hlocks =>
    obtain rfl := h.eq_none (by rw [hpc]; rfl)
    have hmid : (s.goto none (.waking w rest)).Serving :=
      h.update_main (fun _ => h.outlast (by rw [hpc]; rfl)) rfl
    exact hmid.push (by rw [pc_goto_self]; rfl) w fd st
  | @destroy t i hpc hjoin =>
    cases t with
    | none => exact h.update_main (fun huses => by cases huses) rfl
    | some w =>
      have hgoto : (s.goto (some w) (.stopping .socket)).Serving := h.goto_worker rfl rfl
      exact ⟨hgoto.outlast, hgoto.serves, hgoto.emptied⟩
  | @advance t i t' calls hadv =>
    cases t with
    | none =>
      refine h.update_main (fun huses => ?_) rfl
      exact (hadv.usesWorkers huses).elim h.outlast houtlast
    | some w =>
      refine h.update_worker (hadv.serves (h.serves w)) (hadv.queueEmptied (h.emptied w))
        (fun hmain => ?_) rfl
      rcases hadv.emptied with hsame | hempties
      · exact hsame.trans (h.outlast hmain w)
      · rw [houtlast hempties] at hmain
        cases hmain

lemma preserves_serving : Preserves next (WorkersOutlast (n := n)) Serving := by
  intro s a s' h houtlast hstep
  obtain ⟨calls, hsteps⟩ := steps_of_next hstep
  exact h.steps houtlast hsteps

lemma serving_new (setup : Setup n) : (new setup).Serving where
  outlast := fun _ _ => rfl
  serves := fun _ => ⟨rfl, rfl⟩
  emptied := fun _ => Thread.queueEmptied_of_not_emptied rfl

/-- **The main thread never uses a worker that is gone in every run in which the workers outlast
its use of them.**  Any number of workers, any descriptors the kernel hands out, and any
interleaving. -/
theorem usesLiving_of_workersOutlast (setup : Setup n) (as : List (ServerAct n))
    (h : Along next WorkersOutlast (new setup) as) : Throughout next UsesLiving (new setup) as :=
  preserves_serving.throughout (fun _ hs => hs.usesLiving) (serving_new setup) h

/-- A connection is accepted and pushed; a signal comes, and the worker closes the connection and
deletes its object before the main thread ends. -/
theorem usesLiving_of_workersOutlast_signal :
    Throughout next UsesLiving (new Setup.oneWorker)
      [.run none (accepting .again), .wait none [⟨3, ⟨true, false, false, false⟩⟩],
        .run none (accepting .again), .run none (accepting (.accepted 10 "" 0)),
        .run none (accepting .again), .run none (accepting .again), .run none (accepting .again),
        .run none (accepting .again), .signal, .run (some 0) (accepting .again),
        .run (some 0) (accepting .again), .run (some 0) (accepting .again),
        .run (some 0) (accepting .again), .run (some 0) (accepting .again),
        .run (some 0) (accepting .again), .run (some 0) (accepting .again),
        .run (some 0) (accepting .again), .run (some 0) (accepting .again),
        .run (some 0) (accepting .again), .run none (accepting .again),
        .run none (accepting .again), .run none (accepting .again)] :=
  usesLiving_of_workersOutlast Setup.oneWorker _ (by decide)

/-- The worker reads the end of standard input and deletes its object while the main thread
handles a batch that it got before; the next connection is pushed to the deleted object. -/
theorem not_usesLiving_worker_reads_eof :
    ¬ Throughout next UsesLiving (new Setup.oneWorker)
      [.run none (accepting .again), .wait none [⟨3, ⟨true, false, false, false⟩⟩],
        .run (some 0) (accepting .again), .wait (some 0) [⟨0, ⟨true, false, false, false⟩⟩],
        .run (some 0) (accepting .again), .run (some 0) (accepting .again),
        .run (some 0) (accepting .again), .run (some 0) (accepting .again),
        .run (some 0) (accepting .again), .run (some 0) (accepting .again),
        .run (some 0) (accepting .again), .run (some 0) (accepting .again),
        .run (some 0) (accepting .again), .run (some 0) (accepting .again),
        .run (some 0) (accepting .again), .run none (accepting .again),
        .run none (accepting (.accepted 10 "" 0)), .run none (accepting .again)] := by
  decide

end Server

end ClientServer.Mync
