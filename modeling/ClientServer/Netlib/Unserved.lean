import ClientServer.Netlib.Disconnects
import ClientServer.Netlib.Leaks

/-!
# A single-thread server does not serve its clients

`handle_accept` puts a connection into `clients` and into no interest set.  So the loop waits for
the listening socket alone, and what `on_epoll_event` does for a client is never reached: along any
run of a `SinglethreadServer` from its construction on, with any calls, reports and results, a
client stays as it was accepted until a `stop()` finishes.  None is read, none leaves, and no
`ClientDisconnect` is passed on (`unheard_along`).
-/

namespace ClientServer.Netlib

open Mync (Fd Events Report ReadAnswer)

lemma FdTable.eq_or_mem_of_mem_watched_watch {t : FdTable} {fd x : Fd}
    (h : x ∈ (t.watch fd).watched) : x = fd ∨ x ∈ t.watched := by
  by_cases hopen : fd ∈ t.opened
  · rw [FdTable.watched_watch hopen] at h
    exact Finset.mem_insert.1 h
  · have hsame : (t.watch fd).watched = t.watched := if_neg hopen
    rw [hsame] at h
    exact .inr h

/-- The loop waits for its socket alone, and no report about another descriptor is still to be
handled. -/
structure LightEpoll.HearsOnlySocket (e : LightEpoll) : Prop where
  watched : ∀ fd ∈ e.fds.watched, 0 < e.socket ∧ fd = e.socket
  pending : ∀ (i : ℕ) (r : Report) (rest : List Report), e.threads[i]? = some (.events r rest) →
    ∀ x ∈ r :: rest, 0 < e.socket ∧ x.fd = e.socket

lemma ExecPc.eq_cons_of_after {r : Report} {rest reports : List Report}
    (h : ExecPc.after reports = .events r rest) : r :: rest = reports := by
  cases reports with
  | nil => cases h
  | cons r' rest' =>
    cases h
    rfl

namespace LightEpoll

variable {e : LightEpoll} {i : ℕ}

/-- A thread goes on to reports about the socket. -/
lemma HearsOnlySocket.goto (h : e.HearsOnlySocket) {pc : ExecPc}
    (hpc : ∀ r rest, pc = .events r rest → ∀ x ∈ r :: rest, 0 < e.socket ∧ x.fd = e.socket) :
    (e.goto i pc).HearsOnlySocket where
  watched := h.watched
  pending j r rest hj := by
    show ∀ x ∈ r :: rest, 0 < e.socket ∧ x.fd = e.socket
    have hget : (e.threads.set i pc)[j]? = some (.events r rest) := hj
    rw [List.getElem?_set] at hget
    split_ifs at hget
    · exact hpc r rest (Option.some.inj hget)
    · exact h.pending j r rest hget

/-- What `HearsOnlySocket` is about stays, but for descriptors that leave the interest set. -/
lemma HearsOnlySocket.mono (h : e.HearsOnlySocket) {e' : LightEpoll}
    (hwatched : e'.fds.watched ⊆ e.fds.watched) (hsocket : e'.socket = e.socket)
    (hthreads : e'.threads = e.threads) : e'.HearsOnlySocket where
  watched fd hfd := by
    rw [hsocket]
    exact h.watched fd (hwatched hfd)
  pending j r rest hj := by
    rw [hsocket]
    exact h.pending j r rest (hthreads ▸ hj)

/-- A thread is started only where there was no socket, so that nothing was registered and no report
is left. -/
lemma HearsOnlySocket.startHandle (h : e.HearsOnlySocket) {thrown : String} {sock : Fd}
    {register added : Bool} {e' : LightEpoll} (hpos : register = true → 0 < sock)
    (hstart : e.startHandle thrown sock register added = .ok e') : e'.HearsOnlySocket := by
  unfold LightEpoll.startHandle at hstart
  by_cases hbusy : 0 < e.socket
  · rw [if_pos hbusy] at hstart
    cases hstart
  rw [if_neg hbusy] at hstart
  by_cases hadded : register = true ∧ ¬ added = true
  · rw [if_pos hadded] at hstart
    cases hstart
    exact h
  rw [if_neg hadded] at hstart
  cases hstart
  refine ⟨fun fd hfd => ?_, fun i r rest hi => ?_⟩
  · show 0 < sock ∧ fd = sock
    have hmem : fd ∈ (if register then e.fds.watch sock else e.fds).watched := hfd
    split_ifs at hmem with hregister
    · rcases FdTable.eq_or_mem_of_mem_watched_watch hmem with heq | hold
      · exact ⟨hpos hregister, heq⟩
      · exact absurd (h.watched fd hold).1 hbusy
    · exact absurd (h.watched fd hmem).1 hbusy
  · have hget : (e.threads ++ [ExecPc.loopHead])[i]? = some (.events r rest) := hi
    rcases List.mem_append.1 (List.mem_of_getElem? hget) with hold | hnew
    · obtain ⟨j, hj⟩ := List.mem_iff_getElem?.1 hold
      exact absurd (h.pending j r rest hj r List.mem_cons_self).1 hbusy
    · cases List.mem_singleton.1 hnew

end LightEpoll

namespace ServerLightEpoll

variable {e e' : ServerLightEpoll} {r : Report} {b : Answers}

/-- A connection that is accepted does not take the place of a client. -/
lemma getElem?_of_handleAccept {answers : List AcceptAnswer} {fd : Fd} {st : Stats}
    (h : e.handleAccept answers = some (.ok e')) (hfd : e.clients[fd]? = some st) :
    e'.clients[fd]? = some st := by
  induction answers generalizing e with
  | nil => cases h
  | cons answer answers ih =>
    cases answer with
    | accepted fd' ip totalBytes =>
      refine ih (e := e.addClient fd' ip totalBytes) h ?_
      have hmem : fd ∈ e.clients := Std.ExtTreeMap.isSome_getElem?_iff_mem.1 (by rw [hfd]; rfl)
      show (e.clients.insertIfNew fd' ⟨ip, totalBytes⟩)[fd]? = some st
      rw [Std.ExtTreeMap.getElem?_insertIfNew, if_neg, hfd]
      rintro ⟨heq, hnew⟩
      exact hnew (Std.LawfulEqCmp.eq_of_compare heq ▸ hmem)
    | again =>
      cases h
      exact hfd
    | error strerror => cases h

/-- What `on_epoll_event` does with a report about the socket. -/
lemma of_onEpollEvent_socket (hr : 0 < e.socket ∧ r.fd = e.socket)
    (h : e.onEpollEvent r b = some (.ok e')) :
    e' = { e with needStop := true } ∨ e' = e ∨ e.handleAccept b.accepts = some (.ok e') := by
  unfold onEpollEvent at h
  rw [if_pos hr.2, if_pos hr] at h
  split_ifs at h
  · cases h
    exact .inl rfl
  · exact .inr (.inr h)
  · cases h
    exact .inr (.inl rfl)

lemma notified_of_socket {ev : Option EventType} (hr : r.fd = e.socket)
    (h : e.onEpollEventNotified r b = some (.ok (e', ev))) : ev = none := by
  unfold onEpollEventNotified at h
  rw [if_pos hr] at h
  split_ifs at h
  · cases h
    rfl
  · obtain ⟨result, -, hresult⟩ := Option.map_eq_some_iff.1 h
    cases result with
    | error thrown => cases hresult
    | ok e'' =>
      cases hresult
      rfl

end ServerLightEpoll

namespace SinglethreadServer

/-- The step keeps every client as it is, but for the end of a `stop()`, and passes no event on. -/
structure Unheard (conf : ServerConfig) (s : SinglethreadServer) (act : ServerAct) : Prop where
  keeps : act ≠ .joined → ∀ s', s.next conf act = some s' →
    ∀ (fd : Fd) (st : Stats), s.epoll.clients[fd]? = some st → s'.epoll.clients[fd]? = some st
  silent : ∀ i b, act = .handle i b → ∀ r rest, s.epoll.report? i = some (r, rest) →
    ∀ e ev, s.epoll.onEpollEventNotified r b = some (.ok (e, ev)) → ev = none

/-- The loops hear only of the socket. -/
def HearsOnlySocket (s : SinglethreadServer) : Prop := s.epoll.toLightEpoll.HearsOnlySocket

variable {conf : ServerConfig} {a : StartAnswers} {t : FdTable} {s s' : SinglethreadServer}

lemma watched_createListenSocket (conf : ServerConfig) (a : StartAnswers) (t : FdTable) :
    (createListenSocket conf a t).2.2.watched ⊆ t.watched := by
  unfold createListenSocket
  split_ifs
  case pos => exact Finset.Subset.refl _
  case neg => exact Finset.Subset.refl _
  all_goals exact Finset.erase_subset _ _

/-- A `start()` leaves the loop what it was, or starts it on a new socket. -/
lemma hearsOnlySocket_start (h : s.HearsOnlySocket) :
    (s.start conf a).1.HearsOnlySocket := by
  have hsub := watched_createListenSocket conf a s.epoll.fds
  unfold start
  generalize createListenSocket conf a s.epoll.fds = result at hsub
  obtain ⟨sock, text, fds⟩ := result
  have hkept : LightEpoll.HearsOnlySocket { s.epoll.toLightEpoll with fds := fds } :=
    h.mono hsub rfl rfl
  by_cases hsock : sock < 0
  · simp only [if_pos hsock]
    exact hkept
  simp only [if_neg hsock, ServerLightEpoll.startHandle]
  cases hstart : LightEpoll.startHandle { s.epoll.toLightEpoll with fds := fds }
      "srv wrong use start_handle " sock (0 < sock) a.added with
  | error thrown => exact hkept
  | ok l => exact hkept.startHandle of_decide_eq_true hstart

lemma hearsOnlySocket_finishStop {e : ServerLightEpoll} (h : e.toLightEpoll.HearsOnlySocket) :
    e.finishStop.toLightEpoll.HearsOnlySocket := by
  have hloop : ∀ (fds : List Fd) (e : ServerLightEpoll), e.toLightEpoll.HearsOnlySocket →
      (fds.foldl ServerLightEpoll.removeClient e).toLightEpoll.HearsOnlySocket := by
    intro fds
    induction fds with
    | nil => exact fun e h => h
    | cons fd fds ih =>
      refine fun e h => ih _ (h.mono ?_ rfl rfl)
      exact (Finset.erase_subset _ _).trans (Finset.erase_subset _ _)
  refine hloop _ _ (h.mono ?_ rfl rfl)
  show (if 0 < e.socket then e.fds.close e.socket else e.fds : FdTable).watched ⊆ _
  split_ifs
  · exact Finset.erase_subset _ _
  · exact Finset.Subset.refl _

/-- The report that a thread is about to handle is about the socket. -/
lemma HearsOnlySocket.report (h : s.HearsOnlySocket) {i : ℕ} {r : Report} {rest : List Report}
    (hi : s.epoll.report? i = some (r, rest)) : 0 < s.epoll.socket ∧ r.fd = s.epoll.socket :=
  h.pending i r rest (LightEpoll.report?_eq_some.1 hi) r List.mem_cons_self

/-- What handling a report does to the loop and to the clients. -/
lemma of_next_handle {i : ℕ} {b : ServerLightEpoll.Answers} (h : s.HearsOnlySocket)
    (hstep : s.next conf (.handle i b) = some s') :
    ∃ r rest, s.epoll.report? i = some (r, rest) ∧
      s'.epoll.fds.watched = s.epoll.fds.watched ∧ s'.epoll.socket = s.epoll.socket ∧
      s'.epoll.threads = s.epoll.threads.set i (.after rest) ∧
      ∀ (fd : Fd) (st : Stats), s.epoll.clients[fd]? = some st →
        s'.epoll.clients[fd]? = some st := by
  simp only [next] at hstep
  split at hstep
  swap
  · cases hstep
  rename_i r rest hi
  split_ifs at hstep
  split at hstep
  swap
  · cases hstep
  rename_i e he
  cases hstep
  refine ⟨r, rest, hi, ?_⟩
  rcases ServerLightEpoll.of_onEpollEvent_socket (h.report hi) he with rfl | rfl | hloop
  · exact ⟨rfl, rfl, rfl, fun _ _ => id⟩
  · exact ⟨rfl, rfl, rfl, fun _ _ => id⟩
  · obtain ⟨-, hsocket, -, hthreads, hwatched, -⟩ := ServerLightEpoll.of_handleAccept hloop
    refine ⟨hwatched, hsocket, ?_, fun fd st hfd => ?_⟩
    · show e.threads.set i _ = _
      rw [hthreads]
    · show e.clients[fd]? = some st
      exact ServerLightEpoll.getElem?_of_handleAccept hloop hfd

lemma preserves_hearsOnlySocket :
    Preserves (next conf) (fun _ _ => True) HearsOnlySocket := by
  intro s act s' h _ hstep
  cases act with
  | start a =>
    simp only [next] at hstep
    split_ifs at hstep
    cases hstep
    exact hearsOnlySocket_start h
  | stop =>
    simp only [next] at hstep
    split_ifs at hstep
    cases hstep
    exact h.mono (Finset.Subset.refl _) rfl rfl
  | joined =>
    simp only [next] at hstep
    split_ifs at hstep
    cases hstep
    exact hearsOnlySocket_finishStop h
  | testStop i =>
    obtain ⟨l, hl, rfl⟩ := Option.map_eq_some_iff.1 hstep
    obtain ⟨-, rfl⟩ := LightEpoll.of_testStop hl
    refine LightEpoll.HearsOnlySocket.goto h fun r rest hpc => ?_
    split_ifs at hpc
  | epollWait i reports =>
    obtain ⟨l, hl, rfl⟩ := Option.map_eq_some_iff.1 hstep
    obtain ⟨-, hbatch, rfl⟩ := LightEpoll.of_epollWait hl
    refine LightEpoll.HearsOnlySocket.goto h fun r rest hpc x hx => h.watched _ (hbatch.2.2 x ?_)
    rwa [← ExecPc.eq_cons_of_after hpc]
  | handle i b =>
    obtain ⟨r, rest, hi, hwatched, hsocket, hthreads, -⟩ := of_next_handle h hstep
    refine LightEpoll.HearsOnlySocket.mono (e := s.epoll.goto i (.after rest))
      (LightEpoll.HearsOnlySocket.goto h fun r' rest' hpc x hx => ?_) hwatched.subset hsocket
      hthreads
    refine h.pending i r rest (LightEpoll.report?_eq_some.1 hi) x (List.mem_cons_of_mem r ?_)
    rwa [← ExecPc.eq_cons_of_after hpc]

/-- A loop that hears only of its socket keeps its clients. -/
lemma HearsOnlySocket.unheard (h : s.HearsOnlySocket) (act : ServerAct) : s.Unheard conf act := by
  refine ⟨fun hjoined s' hstep fd st hfd => ?_, fun i b hact r rest hi e ev hev =>
    ServerLightEpoll.notified_of_socket (h.report hi).2 hev⟩
  cases act with
  | start a =>
    simp only [next] at hstep
    split_ifs at hstep
    cases hstep
    rwa [clients_start]
  | stop =>
    simp only [next] at hstep
    split_ifs at hstep
    cases hstep
    exact hfd
  | joined => exact absurd rfl hjoined
  | testStop i =>
    obtain ⟨l, -, rfl⟩ := Option.map_eq_some_iff.1 hstep
    exact hfd
  | epollWait i reports =>
    obtain ⟨l, -, rfl⟩ := Option.map_eq_some_iff.1 hstep
    exact hfd
  | handle i b =>
    obtain ⟨r, rest, -, -, -, -, hclients⟩ := of_next_handle h hstep
    exact hclients fd st hfd

/-- **A server does not serve its clients.**  Along any history of calls, reports and results,
every step but the end of a `stop()` leaves each client where it is, with the bytes counted for it
when it was accepted, and no step announces the loss of a client. -/
theorem unheard_along (conf : ServerConfig) (acts : List ServerAct) :
    Along (next conf) (Unheard conf) new acts :=
  preserves_hearsOnlySocket.along (fun _ act _ h _ _ => h.unheard act)
    ⟨fun _ h => absurd h (Finset.notMem_empty _), fun _ _ _ h => by cases h⟩
    (along_of_forall (fun _ _ => trivial) _ acts)

end SinglethreadServer

end ClientServer.Netlib
