import ClientServer.Library.Refinement
import ClientServer.Mync.Ownership

/-!
# The server as objects that run in one go

Some models have one `Epoll` object whose drain loop and `fullstop` are single steps; in the
process they are many steps of a thread, and other threads push connections in between.  The
process refines a family of such objects (`refines_throughout`): whatever the threads do, there is
a run in which every report, every adoption, every push and every `fullstop` is one step, and whose
objects each thread's object follows (`Thread.Follows`).  Between two handlers the thread's object
and its calls are those of the object it follows; inside one they become so with what is left of
the handler.

A drain counts from the moment the mutex is taken, since nobody pushes while it is held: the thread
still has connections to adopt that the object it follows has adopted.  A `fullstop` counts from
the moment it gets to the queue: before, the thread has closed sockets that the object it follows
still holds, and afterwards it has closes left that are made there.  What is pushed before that
moment is closed by it, and what is pushed afterwards stays in the queue of an object that is gone.
One thing shows: the last statement of `fullstop` sets `size_clients` to zero once more, over what
such a push has counted, so from the queue on the counter is left out.
-/

namespace ClientServer.Mync

open Std (ExtTreeMap)

/-! ## Objects -/

/-- An `Epoll` object and the calls it has made. -/
structure Object where
  epoll : Epoll
  calls : List Call

/-- What happens to an object. -/
inductive ObjectAct
  /-- The critical section of `push_external_socket`. -/
  | push (fd : Fd) (st : Stats)
  /-- One iteration of the `for` loop in `exec`. -/
  | handle (r : Report) (a : Answers)
  /-- The end of a turn of `accept_connections` that keeps the connection. -/
  | adopt (fd : Fd) (st : Stats) (added : Bool)
  | fullstop

namespace Object

/-- The object becomes `result.1` and makes the calls `result.2`. -/
def put (o : Object) (result : Epoll × List Call) : Object := ⟨result.1, o.calls ++ result.2⟩

/-- One step; none where an exception is thrown. -/
def step (o : Object) : ObjectAct → Option Object
  | .push fd st => some (o.put (o.epoll.pushExternalSocket fd st, []))
  | .handle r a =>
    match o.epoll.handleReport r a with
    | .ok result => some (o.put result)
    | .error _ => none
  | .adopt fd st added => some (o.put (o.epoll.adopt fd st added))
  | .fullstop => some (o.put o.epoll.fullstop)

end Object

/-! ## `fullstop` in one go -/

namespace Epoll

/-- The calls of `remove_client` for each of the descriptors. -/
def removeCalls (fds : List Fd) : List Call := fds.flatMap fun fd => [.epollDel fd, .close fd]

lemma removeClients_calls (fds : List Fd) (e : Epoll) :
    (removeClients fds e).2 = removeCalls fds := by
  induction fds generalizing e with
  | nil => rfl
  | cons fd fds ih =>
    show [Call.epollDel fd, .close fd] ++ (removeClients fds (e.removeClient fd).1).2 = _
    rw [ih]
    rfl

/-- Only `clients` and `size_clients` change. -/
lemma removeClients_frame (fds : List Fd) (e : Epoll) :
    ∃ m k, (removeClients fds e).1 = { e with clients := m, sizeClients := k } := by
  induction fds generalizing e with
  | nil => exact ⟨e.clients, e.sizeClients, rfl⟩
  | cons fd fds ih =>
    obtain ⟨m, k, h⟩ := ih (e.removeClient fd).1
    exact ⟨m, k, h⟩

/-- The rest of `fullstop` from its last statements on. -/
def restFlags (e : Epoll) : Epoll × List Call := (e.stopFlags, [])

/-- The rest from the eventfd on. -/
def restWakeup (e : Epoll) : Epoll × List Call :=
  (e.stopWakeup.1.restFlags.1, e.stopWakeup.2 ++ e.stopWakeup.1.restFlags.2)

/-- The rest from the timer on. -/
def restTimer (e : Epoll) : Epoll × List Call :=
  (e.stopTimer.1.restWakeup.1, e.stopTimer.2 ++ e.stopTimer.1.restWakeup.2)

/-- The rest from the epoll instance on. -/
def restEpfd (e : Epoll) : Epoll × List Call :=
  (e.stopEpfd.1.restTimer.1, e.stopEpfd.2 ++ e.stopEpfd.1.restTimer.2)

/-- The rest from the queue on. -/
def restQueue (e : Epoll) : Epoll × List Call :=
  ((restEpfd { e with pendingNewSocks := [] }).1,
    e.pendingNewSocks.map (fun c => Call.close c.1) ++
      (restEpfd { e with pendingNewSocks := [] }).2)

/-- The object when its clients are removed. -/
def withoutClients (e : Epoll) : Epoll := { e with sockfd := released e.sockfd, clients := ∅ }

lemma fullstop_eq (e : Epoll) :
    e.fullstop =
      (e.withoutClients.restQueue.1,
        closeOwn e.sockfd ++ (removeCalls e.clients.keys ++ e.withoutClients.restQueue.2)) := by
  obtain ⟨m, k, hframe⟩ := removeClients_frame e.clients.keys e.stopSocket.1
  have hcalls := removeClients_calls e.clients.keys e.stopSocket.1
  have hkeys : e.stopSocket.1.clients.keys = e.clients.keys := rfl
  simp only [fullstop, hkeys, hframe, hcalls, List.append_assoc, restQueue, restEpfd, restTimer,
    restWakeup, restFlags, List.append_nil]
  rfl

end Epoll

/-! ## What an object is to a thread -/

/-- `rest` of the thread's object is what the object `o` has behind it. -/
def Ends (rest : Epoll → Epoll × List Call) (e : Epoll) (log : List Call) (o : Object) : Prop :=
  (rest e).1 = { o.epoll with sizeClients := 0 } ∧ o.calls = log ++ (rest e).2

/-- The object of a thread, whose calls so far are `log`, and the object `o`: the same between the
handlers; in the drain loop `o` is drained; while `fullstop` removes the clients, it has not begun
for `o`; from the queue on it is over for `o`, up to `size_clients`. -/
def Thread.Follows {n : ℕ} (t : Thread n) (log : List Call) (o : Object) : Prop :=
  match t.pc with
  | .draining _ => o.epoll = t.epoll.drain.1 ∧ o.calls = log ++ t.epoll.drain.2
  | .stopping (.clients fds) =>
    (∃ m k, t.epoll = { o.epoll with
      sockfd := Epoll.released o.epoll.sockfd, clients := m, sizeClients := k }) ∧
    log ++ Epoll.removeCalls fds =
      o.calls ++ (Epoll.closeOwn o.epoll.sockfd ++ Epoll.removeCalls o.epoll.clients.keys)
  | .stopping .queue => Ends Epoll.restQueue t.epoll log o
  | .stopping .epfd => Ends Epoll.restEpfd t.epoll log o
  | .stopping .timer => Ends Epoll.restTimer t.epoll log o
  | .stopping .wakeup => Ends Epoll.restWakeup t.epoll log o
  | .stopping .flags => Ends Epoll.restFlags t.epoll log o
  | .deleted => Ends (fun e => ({ e with sizeClients := 0 }, [])) t.epoll log o
  | _ => o.epoll = t.epoll ∧ o.calls = log

/-- No handler is under way. -/
def Pc.between {n : ℕ} : Pc n → Bool
  | .draining _ => false
  | .stopping .socket => true
  | .stopping _ => false
  | .deleted => false
  | _ => true

variable {n : ℕ}

lemma Thread.follows_iff_of_between {t : Thread n} {log : List Call} {o : Object}
    (h : t.pc.between = true) : t.Follows log o ↔ o.epoll = t.epoll ∧ o.calls = log := by
  unfold Thread.Follows
  cases hpc : t.pc with
  | draining rest | deleted =>
    rw [hpc] at h
    cases h
  | stopping stage =>
    rw [hpc] at h
    cases stage with
    | socket => exact Iff.rfl
    | clients fds | queue | epfd | timer | wakeup | flags => cases h
  | loopHead | waiting | events rest | accepting rest | adopting fd st rest
  | choosing fd st best k rest | pushing fd st w rest | waking w rest | counting k rest
  | printing k rest | returned => exact Iff.rfl

namespace Thread.Follows

variable {t t' : Thread n} {log calls : List Call} {o : Object} {i : Input}

/-- A push to a thread that does not hold the mutex of its queue. -/
lemma push (h : t.Follows log o) (hlocks : t.pc.locks = false) (fd : Fd) (st : Stats) :
    Follows { t with epoll := t.epoll.pushExternalSocket fd st } log
      (o.put (o.epoll.pushExternalSocket fd st, [])) := by
  -- behind the queue a push stays in the queue
  have hends {rest : Epoll → Epoll × List Call} (hrest : ∀ e : Epoll,
      rest (e.pushExternalSocket fd st) =
        ({ (rest e).1 with
          pendingNewSocks := (rest e).1.pendingNewSocks ++ [(fd, st)] }, (rest e).2))
      (he : Ends rest t.epoll log o) :
      Ends rest (t.epoll.pushExternalSocket fd st) log
        (o.put (o.epoll.pushExternalSocket fd st, [])) := by
    obtain ⟨hepoll, hcalls⟩ := he
    unfold Ends
    rw [hrest, hepoll]
    refine ⟨rfl, ?_⟩
    show o.calls ++ [] = _
    rw [List.append_nil, hcalls]
  unfold Follows at h ⊢
  cases hpc : t.pc with
  | draining rest =>
    rw [hpc] at hlocks
    cases hlocks
  | stopping stage =>
    rw [hpc] at hlocks
    simp only [hpc] at h ⊢
    cases stage with
    | queue => cases hlocks
    | socket =>
      refine ⟨?_, ?_⟩
      · rw [← h.1]
        rfl
      · show o.calls ++ [] = _
        rw [List.append_nil, h.2]
    | clients fds =>
      obtain ⟨⟨m, k, hepoll⟩, hcalls⟩ := h
      refine ⟨⟨m, k + 1, ?_⟩, ?_⟩
      · rw [hepoll]
        rfl
      · show _ = o.calls ++ [] ++ _
        rw [List.append_nil]
        exact hcalls
    | epfd => exact hends (fun e => rfl) h
    | timer => exact hends (fun e => rfl) h
    | wakeup => exact hends (fun e => rfl) h
    | flags => exact hends (fun e => rfl) h
  | deleted =>
    simp only [hpc] at h ⊢
    exact hends (fun e => rfl) h
  | loopHead | waiting | events rest | accepting rest | adopting fd st rest
  | choosing fd st best k rest | pushing fd st w rest | waking w rest | counting k rest
  | printing k rest | returned =>
    simp only [hpc] at h ⊢
    refine ⟨?_, ?_⟩
    · rw [← h.1]
      rfl
    · show o.calls ++ [] = _
      rw [List.append_nil, h.2]

/-- Another point between the handlers. -/
lemma goto (h : t.Follows log o) (hbetween : t.pc.between = true) {pc : Pc n}
    (hpc : pc.between = true) : Follows { t with pc := pc } log o := by
  rw [follows_iff_of_between hbetween] at h
  exact (follows_iff_of_between (t := { t with pc := pc }) hpc).2 h

/-- A handler that runs in one step. -/
lemma put (h : t.Follows log o) (hbetween : t.pc.between = true) {pc : Pc n}
    (hpc : pc.between = true) (result : Epoll × List Call) :
    Follows ⟨result.1, pc⟩ (log ++ result.2) (o.put result) := by
  rw [follows_iff_of_between hbetween] at h
  refine (follows_iff_of_between (t := ⟨result.1, pc⟩) hpc).2 ⟨rfl, ?_⟩
  show o.calls ++ result.2 = _
  rw [h.2]

lemma between_after (e : Epoll) (r : Report) (a : Answers) (rest : List Report) :
    (Pc.after e r a rest : Pc n).between = true := by
  rcases Pc.after_cases (n := n) e r a rest with h | ⟨-, h⟩ | ⟨-, h⟩ <;> rw [h] <;> rfl

/-- The object has handled the report when the drain loop begins, or in one step. -/
lemma handle (h : t.Follows log o) {r : Report} {rest : List Report} {a : Answers}
    (hpc : t.pc = .events (r :: rest)) (hstep : t.handle r rest a = .ok (t', calls)) :
    ∃ o', Moves Object.step o o' ∧ t'.Follows (log ++ calls) o' := by
  have hbetween : t.pc.between = true := by rw [hpc]; rfl
  obtain ⟨hepoll, hcalls⟩ := (follows_iff_of_between hbetween).1 h
  unfold Thread.handle at hstep
  by_cases hwakeup : t.epoll.dispatch r = .wakeup
  · rw [if_pos hwakeup] at hstep
    cases hstep
    refine ⟨o.put t.epoll.drain, .inr ⟨.handle r a, ?_⟩, ?_⟩
    · simp only [Object.step, hepoll, Epoll.handleReport, hwakeup]
    · refine ⟨rfl, ?_⟩
      show o.calls ++ t.epoll.drain.2 = log ++ [] ++ t.epoll.drain.2
      rw [hcalls, List.append_nil]
  · rw [if_neg hwakeup] at hstep
    cases hok : t.epoll.handleReport r a with
    | error thrown => simp [hok, Except.map] at hstep
    | ok result =>
      rw [hok] at hstep
      cases hstep
      refine ⟨o.put result, .inr ⟨.handle r a, ?_⟩, h.put hbetween (between_after ..) result⟩
      simp only [Object.step, hepoll, hok]

/-- A turn of the drain loop is part of what the object has done. -/
lemma drain (h : t.Follows log o) {rest : List Report} (hpc : t.pc = .draining rest)
    {fd : Fd} {st : Stats} {queue : List (Fd × Stats)}
    (hqueue : t.epoll.pendingNewSocks = (fd, st) :: queue) :
    Follows { t with epoll := (t.epoll.drainOne fd st queue).1 }
      (log ++ (t.epoll.drainOne fd st queue).2) o := by
  have hdrain : t.epoll.drain =
      ((t.epoll.drainOne fd st queue).1.drain.1,
        (t.epoll.drainOne fd st queue).2 ++ (t.epoll.drainOne fd st queue).1.drain.2) := by
    unfold Epoll.drain
    rw [hqueue]
    rfl
  unfold Follows at h ⊢
  simp only [hpc] at h ⊢
  rw [hdrain, ← List.append_assoc] at h
  exact h

/-- The end of the drain loop. -/
lemma drained (h : t.Follows log o) {rest : List Report} (hpc : t.pc = .draining rest)
    (hqueue : t.epoll.pendingNewSocks = []) :
    Follows (⟨t.epoll, .events rest⟩ : Thread n) log o := by
  have hdrain : t.epoll.drain = (t.epoll, []) := by
    obtain ⟨e, pc⟩ := t
    cases e
    cases hqueue
    rfl
  unfold Follows at h
  simp only [hpc, hdrain, List.append_nil] at h
  exact h

/-- A part of `fullstop`; the object stops when the copied keys are done. -/
lemma stop (h : t.Follows log o) {stage : Stage} (hpc : t.pc = .stopping stage) :
    ∃ o', Moves Object.step o o' ∧ (t.stop stage).1.Follows (log ++ (t.stop stage).2) o' := by
  -- behind the queue there is only less of `fullstop` left
  have hends {rest rest' : Epoll → Epoll × List Call} {e' : Epoll} {calls : List Call}
      (hrest : rest t.epoll = ((rest' e').1, calls ++ (rest' e').2))
      (he : Ends rest t.epoll log o) : Ends rest' e' (log ++ calls) o := by
    unfold Ends at he ⊢
    rw [hrest] at he
    rw [List.append_assoc]
    exact he
  unfold Follows at h
  simp only [hpc] at h
  cases stage with
  | socket =>
    obtain ⟨hepoll, hcalls⟩ := h
    refine ⟨o, .inl rfl, ⟨o.epoll.clients, o.epoll.sizeClients, ?_⟩, ?_⟩
    · rw [hepoll]
      rfl
    · rw [hepoll, hcalls, ← List.append_assoc]
      rfl
  | clients fds =>
    obtain ⟨⟨m, k, hepoll⟩, hcalls⟩ := h
    cases fds with
    | nil =>
      refine ⟨o.put o.epoll.fullstop, .inr ⟨.fullstop, rfl⟩, ?_, ?_⟩
      · show t.epoll.clearClients.restQueue.1 = { o.epoll.fullstop.1 with sizeClients := 0 }
        rw [Epoll.fullstop_eq, hepoll]
        rfl
      · show o.calls ++ o.epoll.fullstop.2 = log ++ [] ++ t.epoll.clearClients.restQueue.2
        have hlog : log = o.calls ++
            (Epoll.closeOwn o.epoll.sockfd ++ Epoll.removeCalls o.epoll.clients.keys) := by
          rw [← hcalls]
          exact (List.append_nil log).symm
        rw [Epoll.fullstop_eq, hlog, hepoll, List.append_nil, List.append_assoc,
          List.append_assoc]
        rfl
    | cons fd fds =>
      refine ⟨o, .inl rfl, ⟨m.erase fd, k - 1, ?_⟩, ?_⟩
      · show (t.epoll.removeClient fd).1 = _
        rw [hepoll]
        rfl
      · rw [← hcalls, List.append_assoc]
        rfl
  | queue =>
    unfold Thread.stop
    cases hqueue : t.epoll.pendingNewSocks with
    | nil =>
      refine ⟨o, .inl rfl, ?_⟩
      have hrest : Epoll.restQueue t.epoll =
          ((Epoll.restEpfd t.epoll).1, [] ++ (Epoll.restEpfd t.epoll).2) := by
        have hsame : ({ t.epoll with pendingNewSocks := [] } : Epoll) = t.epoll := by
          rw [← hqueue]
        rw [Epoll.restQueue, hsame, hqueue]
        rfl
      exact hends hrest h
    | cons c queue =>
      obtain ⟨fd, st⟩ := c
      refine ⟨o, .inl rfl, ?_⟩
      have hrest : Epoll.restQueue t.epoll =
          ((Epoll.restQueue (t.epoll.stopPending fd queue).1).1,
            [.close fd] ++ (Epoll.restQueue (t.epoll.stopPending fd queue).1).2) := by
        rw [Epoll.restQueue, hqueue]
        rfl
      exact hends hrest h
  | epfd => exact ⟨o, .inl rfl, hends rfl h⟩
  | timer => exact ⟨o, .inl rfl, hends rfl h⟩
  | wakeup => exact ⟨o, .inl rfl, hends rfl h⟩
  | flags =>
    have hdeleted : Ends (fun e => ({ e with sizeClients := 0 }, [])) t.epoll.stopFlags
        (log ++ []) o := hends rfl h
    exact ⟨o, .inl rfl, hdeleted⟩

/-- Where a thread goes on by itself, its object takes one step or none. -/
lemma advance (h : t.Follows log o) {shouldStop : Bool}
    (hstep : t.advance shouldStop i = .ok (t', calls)) :
    ∃ o', Moves Object.step o o' ∧ t'.Follows (log ++ calls) o' := by
  -- most points are between the handlers, before and after
  have hgoto {pc : Pc n} (hbetween : t.pc.between = true) (hpc : pc.between = true) :
      ∃ o', Moves Object.step o o' ∧ Follows { t with pc := pc } (log ++ []) o' := by
    refine ⟨o, .inl rfl, ?_⟩
    rw [List.append_nil]
    exact h.goto hbetween hpc
  unfold Thread.advance at hstep
  split at hstep <;> rename_i hpc
  · have hbetween : t.pc.between = true := by rw [hpc]; rfl
    split_ifs at hstep
    · cases hstep
      exact hgoto hbetween rfl
    · cases hstep
      exact hgoto hbetween rfl
  · cases hstep
    exact hgoto (by rw [hpc]; rfl) rfl
  · exact h.handle hpc hstep
  · split at hstep <;> rename_i hqueue
    · cases hstep
      refine ⟨o, .inl rfl, ?_⟩
      rw [List.append_nil]
      exact h.drained hpc hqueue
    · cases hstep
      exact ⟨o, .inl rfl, h.drain hpc hqueue⟩
  · rename_i fd st rest
    have hbetween : t.pc.between = true := by rw [hpc]; rfl
    cases hstep
    refine ⟨o.put (t.epoll.adopt fd st i.added), .inr ⟨.adopt fd st i.added, ?_⟩,
      h.put hbetween rfl _⟩
    rw [← ((follows_iff_of_between hbetween).1 h).1]
    rfl
  · cases hstep
    exact hgoto (by rw [hpc]; rfl) rfl
  · cases hstep
    exact hgoto (by rw [hpc]; rfl) (by split_ifs <;> rfl)
  · cases hstep
    exact hgoto (by rw [hpc]; rfl) (by split_ifs <;> rfl)
  · rename_i stage
    have hstop : t.stop stage = (t', calls) := Except.ok.inj hstep
    have hmoves := h.stop hpc
    rw [hstop] at hmoves
    exact hmoves
  · cases hstep
    refine ⟨o, .inl rfl, ?_⟩
    rw [List.append_nil]
    exact h

end Thread.Follows

/-! ## The process -/

/-- The server, and the calls that each of its threads has made. -/
structure LoggedServer (n : ℕ) where
  server : Server n
  log : Agent n → List Call

/-- The objects that the threads start with. -/
def Setup.objects (setup : Setup n) (t : Agent n) : Object := ⟨setup.epoll t, []⟩

namespace LoggedServer

/-- All threads at the start of `exec`. -/
def new (setup : Setup n) : LoggedServer n := ⟨.new setup, fun _ => []⟩

/-- The log after an action that makes these calls. -/
def record (log : Agent n → List Call) (calls : List Call) : ServerAct n → Agent n → List Call
  | .run t _ => Function.update log t (log t ++ calls)
  | _ => log

def next (w : LoggedServer n) (a : ServerAct n) : Option (LoggedServer n) :=
  (w.server.outcome a).map fun result => ⟨result.1, record w.log result.2 a⟩

/-- Every thread follows its object. -/
def Follows (w : LoggedServer n) (os : Agent n → Object) : Prop :=
  ∀ t, (w.server.threads t).Follows (w.log t) (os t)

section Step

variable {w : LoggedServer n} {os : Agent n → Object} {s s' : Server n} {t : Agent n}
  {log : Agent n → List Call}

lemma record_nil (log : Agent n → List Call) (a : ServerAct n) : record log [] a = log := by
  cases a with
  | signal | wait => rfl
  | run t i =>
    show Function.update log t (log t ++ []) = log
    rw [List.append_nil, Function.update_eq_self]

/-- One thread moves on, with its object; the others stay as they are. -/
lemma Follows.update (h : Follows ⟨s, log⟩ os) {t' : Thread n} {calls : List Call}
    (hthreads : s'.threads = Function.update s.threads t t')
    (ht : ∃ o', Moves Object.step (os t) o' ∧ t'.Follows (log t ++ calls) o') :
    ∃ os', Reaches (each Object.step) os os' ∧
      Follows ⟨s', Function.update log t (log t ++ calls)⟩ os' := by
  obtain ⟨o', hmoves, hfollows⟩ := ht
  refine ⟨Function.update os t o', hmoves.reaches_each, fun a => ?_⟩
  show (s'.threads a).Follows (Function.update log t _ a) (Function.update os t o' a)
  rw [hthreads]
  by_cases ha : a = t
  · subst ha
    simp only [Function.update_self]
    exact hfollows
  · simp only [Function.update_of_ne ha]
    exact h a

/-- One thread moves on between the handlers. -/
lemma Follows.goto (h : Follows ⟨s, log⟩ os) (hbetween : (s.threads t).pc.between = true)
    {pc : Pc n} (hpc : pc.between = true) : Follows ⟨s.goto t pc, log⟩ os := by
  intro a
  show ((s.goto t pc).threads a).Follows (log a) (os a)
  by_cases ha : a = t
  · subst ha
    show (Function.update s.threads a _ a).Follows (log a) (os a)
    rw [Function.update_self]
    exact (h a).goto hbetween hpc
  · rw [s.threads_goto_of_ne pc ha]
    exact h a

/-- A push is a step of the object it is made to. -/
lemma Follows.push (h : Follows ⟨s, log⟩ os) {w : Fin n}
    (hlocks : (s.threads (some w)).pc.locks = false) (fd : Fd) (st : Stats) :
    ∃ os', Reaches (each Object.step) os os' ∧ Follows ⟨s.push w fd st, log⟩ os' := by
  have hmoves : ∃ o', Moves Object.step (os (some w)) o' ∧
      Thread.Follows { s.threads (some w) with
        epoll := (s.threads (some w)).epoll.pushExternalSocket fd st } (log (some w) ++ []) o' := by
    rw [List.append_nil]
    exact ⟨_, .inr ⟨.push fd st, rfl⟩, (h (some w)).push hlocks fd st⟩
  have hthreads : (s.push w fd st).threads = Function.update s.threads (some w) _ := rfl
  obtain ⟨os', hreach, hfollows⟩ := h.update hthreads hmoves
  rw [List.append_nil, Function.update_eq_self] at hfollows
  exact ⟨os', hreach, hfollows⟩

/-- What a thread does is done by its object, or by the one it pushes to. -/
lemma Follows.runThread {i : Input} {calls : List Call} (h : Follows ⟨s, log⟩ os)
    (hrun : s.runThread t i = some (s', calls)) :
    ∃ os', Reaches (each Object.step) os os' ∧
      Follows ⟨s', record log calls (.run t i)⟩ os' := by
  -- where the thread stays between the handlers, the objects stay as they are
  have hstay (hfollows : Follows ⟨s', log⟩ os) : ∃ os', Reaches (each Object.step) os os' ∧
      Follows ⟨s', record log [] (.run t i)⟩ os' := by
    rw [record_nil]
    exact ⟨os, .refl, hfollows⟩
  unfold Server.runThread at hrun
  split at hrun <;> (try rename_i hpc)
  · cases hrun
  · cases hrun
  · have hbetween : (s.threads t).pc.between = true := by rw [hpc]; rfl
    split at hrun
    · split_ifs at hrun
      cases hrun
      exact hstay (h.goto hbetween (by unfold Server.place; split_ifs <;> rfl))
    · cases hrun
      exact hstay (h.goto hbetween rfl)
    · cases hrun
      exact hstay h
  · have hbetween : (s.threads t).pc.between = true := by rw [hpc]; rfl
    rename_i fd st best k rest
    by_cases hk : k < n
    · rw [dif_pos hk] at hrun
      cases hrun
      exact hstay (h.goto hbetween rfl)
    · rw [dif_neg hk] at hrun
      cases hrun
      exact hstay (h.goto hbetween rfl)
  · have hbetween : (s.threads t).pc.between = true := by rw [hpc]; rfl
    rename_i fd st w rest
    split_ifs at hrun with hlocks
    cases hrun
    rw [record_nil]
    have hgoto : Follows ⟨s.goto t (.waking w rest), log⟩ os := h.goto hbetween rfl
    refine hgoto.push ?_ fd st
    by_cases hself : some w = t
    · rw [hself, Server.pc_goto_self]
      rfl
    · rw [s.threads_goto_of_ne _ hself]
      simpa using hlocks
  · have hbetween : (s.threads t).pc.between = true := by rw [hpc]; rfl
    split_ifs at hrun
    cases hrun
    exact hstay (h.goto hbetween rfl)
  · split at hrun
    · rename_i t' calls' hok
      cases hrun
      exact h.update rfl ((h t).advance hok)
    · cases hrun
      exact hstay h

end Step

/-- The step lemma: the objects follow. -/
lemma simulates : Simulates next (each Object.step) (Follows (n := n)) := by
  intro w a w' os h hstep
  obtain ⟨s, log⟩ := w
  obtain ⟨⟨s', calls⟩, hout, hw'⟩ := Option.map_eq_some_iff.1 hstep
  subst hw'
  cases a with
  | signal =>
    simp only [Server.outcome, Option.ite_none_left_eq_some, Option.some.injEq] at hout
    obtain ⟨-, hout⟩ := hout
    cases hout
    exact ⟨os, .refl, h⟩
  | wait t batch =>
    simp only [Server.outcome, Option.ite_none_right_eq_some, Option.some.injEq] at hout
    obtain ⟨⟨-, hreturns⟩, hout⟩ := hout
    cases hout
    have hbetween : (s.threads t).pc.between = true := by rw [hreturns.1]; rfl
    exact ⟨os, .refl, h.goto hbetween rfl⟩
  | run t i =>
    simp only [Server.outcome, Option.ite_none_left_eq_some] at hout
    exact h.runThread hout.2

lemma follows_new (setup : Setup n) : (new setup).Follows setup.objects :=
  fun _ => ⟨rfl, rfl⟩

/-- **The server refines objects whose handlers, pushes and `fullstop` are single steps.**  Any
number of workers, any answers of the kernel, and any interleaving, exceptions included: there are
always objects that run in one go, and the object and the calls of every thread follow them, equal
between the handlers. -/
theorem refines_throughout (setup : Setup n) (as : List (ServerAct n)) :
    Throughout next
      (fun w => ∃ os, Reaches (each Object.step) setup.objects os ∧ w.Follows os)
      (new setup) as :=
  simulates.throughout (follows_new setup) as

end LoggedServer

end ClientServer.Mync
