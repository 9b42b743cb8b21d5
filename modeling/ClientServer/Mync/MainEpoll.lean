import ClientServer.Mync.Ownership

/-!
# `mync/epollserver.h`: the construction of `MainEpoll`

The constructor starts one worker after the other and keeps those that `pthread_create` has
started; the object of a worker that could not be started is deleted.  `balance_socket` then hands
every connection to the worker with the fewest.

A deleted object runs `fullstop`, which sets the stop flag of the whole process, and
`balance_socket` dereferences the result of `std::min_element` also where there are no workers.
`usable_iff` says when the server survives both.  Where every worker was started the threads are
as `Server.new` has them (`server_new_of_all_created`).
-/

namespace ClientServer.Mync

/-- The fields of class `MainEpoll` and what its construction leaves behind. -/
structure MainEpoll where
  epoll : Epoll
  /-- `subepolls_`; `workers_` has the thread of each. -/
  subepolls : List Epoll
  /-- `g_should_stop`. -/
  shouldStop : Bool
  calls : List Call

/-- The end of an empty vector is dereferenced. -/
inductive BalanceFault
  | endDereferenced
  deriving DecidableEq, Repr

/-- `num_workers`, for the macros `ONE_THREAD_MODE` and `COUNT_HANDLER_THREADS`. -/
def numWorkers (oneThreadMode : Bool) (countHandlerThreads : ℕ) : ℕ :=
  if oneThreadMode then 0 else countHandlerThreads

namespace MainEpoll

variable {n : ℕ}

/-- One turn of the loop in the constructor: `created` is whether `pthread_create` returns 0. -/
def startWorker (m : MainEpoll) (subepoll : Epoll) (created : Bool) : MainEpoll :=
  if created then { m with subepolls := m.subepolls ++ [subepoll] }
  else
    -- `delete subepoll` runs `fullstop`, which first sets the stop flag
    { m with shouldStop := true, calls := m.calls ++ subepoll.fullstop.2 }

/-- The constructor of a listening server, for `n` workers. -/
def new (d : Descriptors n) (created : Fin n → Bool) : MainEpoll :=
  (List.finRange n).foldl (fun m w => m.startWorker (d.epoll (some w)) (created w))
    ⟨d.epoll none, [], false, []⟩

/-- The index that `std::min_element` finds in `subepolls_`; none is the end. -/
def minElement (subepolls : List Epoll) : Option (Fin subepolls.length) :=
  match List.finRange subepolls.length with
  | [] => none
  | first :: rest => some <| rest.foldl (fun best w =>
      if (subepolls.get w).sizeClients < (subepolls.get best).sizeClients then w else best) first

/-- `MainEpoll::balance_socket`, when the objects of the workers are `subepolls`. -/
def balanceSocket (oneThreadMode : Bool) (subepolls : List Epoll) (fd : Fd) (st : Stats) :
    Except BalanceFault (Bool × List Epoll) :=
  if oneThreadMode then .ok (false, subepolls)
  else
    match minElement subepolls with
    | none => .error .endDereferenced
    | some w => .ok (true, subepolls.set w ((subepolls.get w).pushExternalSocket fd st))

/-- The tests at the head of the loop in `exec`. -/
def Loops (m : MainEpoll) (e : Epoll) : Prop :=
  e.stdinClosed = false ∧ e.socketClosed = false ∧ m.shouldStop = false

/-- A connection goes to one of the workers, or back to the caller. -/
def Places (oneThreadMode : Bool) (subepolls : List Epoll) (fd : Fd) (st : Stats) : Prop :=
  balanceSocket oneThreadMode subepolls fd st = .ok (false, subepolls) ∨
    ∃ w : Fin subepolls.length, balanceSocket oneThreadMode subepolls fd st =
      .ok (true, subepolls.set w ((subepolls.get w).pushExternalSocket fd st))

/-- The main loop and the loops of the started workers run, and every later connection is placed,
whatever has become of the objects of the workers by then. -/
structure Usable (oneThreadMode : Bool) (m : MainEpoll) : Prop where
  main : m.Loops m.epoll
  workers : ∀ e ∈ m.subepolls, m.Loops e
  places : ∀ later : List Epoll, later.length = m.subepolls.length → ∀ fd st,
    Places oneThreadMode later fd st

/-! ## The loop -/

/-- What the loop leaves, from what it starts with. -/
lemma foldl_startWorker (object : Fin n → Epoll) (created : Fin n → Bool) (ws : List (Fin n))
    (m : MainEpoll) :
    ws.foldl (fun m w => m.startWorker (object w) (created w)) m =
      { m with
        subepolls := m.subepolls ++ (ws.filter fun w => created w).map object
        shouldStop := m.shouldStop || ws.any fun w => !created w
        calls := m.calls ++ (ws.filter fun w => !created w).flatMap fun w =>
          (object w).fullstop.2 } := by
  induction ws generalizing m with
  | nil => simp
  | cons w ws ih =>
    rw [List.foldl_cons, ih, startWorker]
    cases hw : created w <;> simp [hw]

lemma new_eq (d : Descriptors n) (created : Fin n → Bool) :
    new d created =
      { epoll := d.epoll none
        subepolls := ((List.finRange n).filter fun w => created w).map fun w => d.epoll (some w)
        shouldStop := (List.finRange n).any fun w => !created w
        calls := ((List.finRange n).filter fun w => !created w).flatMap fun w =>
          (d.epoll (some w)).fullstop.2 } := by
  rw [new, foldl_startWorker]
  simp

lemma shouldStop_new_eq_false_iff (d : Descriptors n) (created : Fin n → Bool) :
    (new d created).shouldStop = false ↔ ∀ w, created w = true := by
  rw [new_eq]
  simp

/-- Where no thread failed, every worker was started. -/
lemma subepolls_new_of_all_created (d : Descriptors n) {created : Fin n → Bool}
    (h : ∀ w, created w = true) :
    (new d created).subepolls = (List.finRange n).map fun w => d.epoll (some w) := by
  rw [new_eq]
  simp [h]

lemma closed_eq_false (d : Descriptors n) (t : Agent n) :
    (d.epoll t).stdinClosed = false ∧ (d.epoll t).socketClosed = false := by
  cases t <;> exact ⟨rfl, rfl⟩

/-- The objects of the started workers are new ones. -/
lemma loops_of_mem (d : Descriptors n) (created : Fin n → Bool)
    (h : (new d created).shouldStop = false) :
    ∀ e ∈ (new d created).subepolls, (new d created).Loops e := by
  intro e he
  rw [new_eq] at he
  obtain ⟨w, -, rfl⟩ := List.mem_map.mp he
  obtain ⟨hstdin, hsocket⟩ := closed_eq_false d (some w)
  exact ⟨hstdin, hsocket, h⟩

/-! ## Connections -/

lemma minElement_eq_none_iff {subepolls : List Epoll} :
    minElement subepolls = none ↔ subepolls = [] := by
  rw [← List.length_eq_zero_iff, ← List.finRange_eq_nil_iff, minElement]
  cases List.finRange subepolls.length with
  | nil => exact iff_of_true rfl rfl
  | cons first rest => exact iff_of_false (Option.some_ne_none _) (List.cons_ne_nil first rest)

/-- `balance_socket` places a connection exactly if it does not look for a worker or has one. -/
lemma places_iff {oneThreadMode : Bool} {subepolls : List Epoll} {fd : Fd} {st : Stats} :
    Places oneThreadMode subepolls fd st ↔ oneThreadMode = true ∨ subepolls ≠ [] := by
  cases oneThreadMode with
  | true => exact iff_of_true (.inl rfl) (.inl rfl)
  | false =>
    simp only [Places, balanceSocket, Bool.false_eq_true, if_false, false_or, ne_eq,
      ← minElement_eq_none_iff]
    cases minElement subepolls with
    | none => simp
    | some w => exact iff_of_true (.inr ⟨w, rfl⟩) (Option.some_ne_none w)

/-! ## The server -/

/-- **When losing workers leaves the server usable**: in one-thread mode, and otherwise exactly if
workers were asked for and none was lost. -/
theorem usable_iff (oneThreadMode : Bool) (countHandlerThreads : ℕ)
    (d : Descriptors (numWorkers oneThreadMode countHandlerThreads))
    (created : Fin (numWorkers oneThreadMode countHandlerThreads) → Bool) :
    Usable oneThreadMode (new d created) ↔
      oneThreadMode = true ∨ (0 < countHandlerThreads ∧ ∀ w, created w = true) := by
  constructor
  · intro h
    cases oneThreadMode with
    | true => exact .inl rfl
    | false =>
      have hall := (shouldStop_new_eq_false_iff d created).mp h.main.2.2
      refine .inr ⟨Nat.pos_of_ne_zero ?_, hall⟩
      rintro rfl
      have hnone : (new d created).subepolls = [] := by
        rw [subepolls_new_of_all_created d hall]
        rfl
      have hplaces := h.places [] (by rw [hnone]) 0 (Stats.new 0)
      exact absurd (places_iff.mp hplaces) (by simp)
  · intro h
    have hall : ∀ w, created w = true := by
      rcases h with rfl | ⟨-, hall⟩
      · exact fun w => w.elim0
      · exact hall
    have hflag := (shouldStop_new_eq_false_iff d created).mpr hall
    have hmain : (new d created).epoll = d.epoll none := by rw [new_eq]
    obtain ⟨hstdin, hsocket⟩ := closed_eq_false d none
    refine ⟨?_, loops_of_mem d created hflag, fun later hlater fd st => places_iff.mpr ?_⟩
    · rw [hmain]
      exact ⟨hstdin, hsocket, hflag⟩
    · rcases h with hmode | ⟨hpos, -⟩
      · exact .inl hmode
      · cases oneThreadMode with
        | true => exact .inl rfl
        | false =>
          refine .inr (List.ne_nil_of_length_pos ?_)
          rw [hlater, subepolls_new_of_all_created d hall, List.length_map, List.length_finRange]
          exact hpos

/-- The descriptors of a server with two workers. -/
def twoWorkers : Descriptors 2 where
  sock := 3
  epfd := fun t => t.elim 4 fun w => 7 + 3 * w.val
  wakeup := fun t => t.elim 5 fun w => 8 + 3 * w.val
  timer := fun t => t.elim 6 fun w => 9 + 3 * w.val

/-- Two workers are asked for, and the second cannot be started: the server is told to stop. -/
theorem not_usable_second_worker_lost :
    ¬ ∀ (oneThreadMode : Bool) (countHandlerThreads : ℕ)
      (d : Descriptors (numWorkers oneThreadMode countHandlerThreads))
      (created : Fin (numWorkers oneThreadMode countHandlerThreads) → Bool),
      Usable oneThreadMode (new d created) := by
  intro hall
  have husable := hall false 2 twoWorkers fun w => decide (w.val = 0)
  exact absurd husable.main.2.2 (by decide)

/-- Where every worker was started, the threads begin as in `Server.new`. -/
theorem server_new_of_all_created (setup : Setup n) {created : Fin n → Bool}
    (h : ∀ w, created w = true) :
    (Server.new setup).threads none =
        ⟨(new setup.toDescriptors created).epoll, .loopHead⟩ ∧
      (∀ w : Fin n, ∃ e, (new setup.toDescriptors created).subepolls[w.val]? = some e ∧
        (Server.new setup).threads (some w) = ⟨e, .loopHead⟩) ∧
      (Server.new setup).shouldStop = (new setup.toDescriptors created).shouldStop := by
  refine ⟨?_, fun w => ⟨setup.epoll (some w), ?_, rfl⟩, ?_⟩
  · rw [new_eq]
    rfl
  · rw [subepolls_new_of_all_created setup.toDescriptors h]
    simp
  · exact ((shouldStop_new_eq_false_iff setup.toDescriptors created).mpr h).symm

end MainEpoll

end ClientServer.Mync
