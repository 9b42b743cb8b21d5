import ClientServer.Netlib.Server

/-!
# Which clients a single-thread server watches

`ServerLightEpoll` from the first `start()` of its server on, one report after the other.  The
clients it counts are the keys of `clients`; the ones it can hear are those in the interest set
of its epoll instance.
-/

namespace ClientServer.Netlib

open Mync (Fd Events Report)

namespace ServerLightEpoll

/-- The loop handles a report on a registered descriptor; none where an exception ends the
process. -/
def nextReport (e : ServerLightEpoll) (p : Report × Answers) : Option ServerLightEpoll :=
  if p.1.fd ∈ e.fds.watched ∧ AcceptsFit e.fds p.2.accepts then
    match e.onEpollEvent p.1 p.2 with
    | some (.ok e') => some e'
    | _ => none
  else none

/-- The interest set is `clients` together with the listening socket. -/
def Watched (e : ServerLightEpoll) : Prop :=
  ∀ fd, fd ∈ e.fds.watched ↔ fd ∈ e.clients ∨ 0 < e.socket ∧ fd = e.socket

/-- No `accept4` of the step returns a connection. -/
def AcceptsNone (e : ServerLightEpoll) (p : Report × Answers) : Prop :=
  e.Accepts p.1 → ∀ x ∈ p.2.accepts, x.isAccepted = false

variable {e e' : ServerLightEpoll} {p : Report × Answers}

lemma handled_of_nextReport (h : e.nextReport p = some e') :
    AcceptsFit e.fds p.2.accepts ∧ Handled e p.1 p.2 e' := by
  unfold nextReport at h
  split_ifs at h with hc
  split at h
  · rename_i hok
    cases h
    exact ⟨hc.2, handled_of_ok hok⟩
  · cases h

/-- A loop of `handle_accept` that gets no connection changes nothing. -/
lemma eq_of_acceptsNone {answers : List AcceptAnswer}
    (hnone : ∀ x ∈ answers, x.isAccepted = false)
    (h : e.handleAccept answers = some (.ok e')) : e' = e := by
  cases answers with
  | nil => cases h
  | cons answer answers =>
    cases answer with
    | accepted fd ip totalBytes =>
      have hfalse := hnone _ List.mem_cons_self
      cases hfalse
    | again =>
      cases h
      rfl
    | error strerror => cases h

/-- A loop that gets connections takes the first one into `clients`. -/
lemma exists_new_client {answers : List AcceptAnswer} (hfit : AcceptsFit e.fds answers)
    (hsome : ∃ x ∈ answers, x.isAccepted = true) (h : e.handleAccept answers = some (.ok e')) :
    ∃ fd ∈ e'.clients, fd ∉ e.fds.opened := by
  obtain ⟨x, hx, haccepted⟩ := hsome
  cases answers with
  | nil => cases h
  | cons answer answers =>
    cases answer with
    | accepted fd ip totalBytes =>
      refine ⟨fd, ?_, hfit.1.2⟩
      exact mem_clients_of_handleAccept (e := e.addClient fd ip totalBytes) h
        (Std.ExtTreeMap.mem_insertIfNew_self)
    | again =>
      have hempty : answers = [] := hfit
      rw [hempty, List.mem_singleton] at hx
      rw [hx] at haccepted
      cases haccepted
    | error strerror => cases h

lemma Watched.removeClient (h : e.Watched) {fd : Fd} (hfd : ¬ (0 < e.socket ∧ fd = e.socket)) :
    (e.removeClient fd).Watched := by
  intro x
  show x ∈ (e.fds.watched.erase fd).erase fd ↔ x ∈ e.clients.erase fd ∨ 0 < e.socket ∧ x = e.socket
  rw [Finset.erase_idem, Finset.mem_erase, h x, Std.ExtTreeMap.mem_erase]
  by_cases hx : x = fd
  · subst hx
    simp [hfd]
  · simp [hx, Ne.symm hx]

/-- Without a new connection the interest set stays right. -/
lemma preserves_watched : Preserves nextReport AcceptsNone Watched := by
  intro e p e' h hnone hstep
  obtain ⟨-, hhandled⟩ := handled_of_nextReport hstep
  cases hhandled with
  | ignored => exact h
  | stopped => exact h
  | removed hfd => exact h.removeClient hfd
  | accepted haccepts hloop =>
    obtain rfl := eq_of_acceptsNone (hnone haccepts) hloop
    exact h
  | counted hmem hkeys => exact fun fd => (h fd).trans (or_congr_left (hkeys fd).symm)

/-- A new connection is in `clients` and in no interest set. -/
lemma acceptsNone_of_watched (hstep : e.nextReport p = some e') (h : e'.Watched) :
    e.AcceptsNone p := by
  intro haccepts
  by_contra hsome
  push Not at hsome
  obtain ⟨x, hx, haccepted⟩ := hsome
  unfold nextReport at hstep
  split_ifs at hstep with hc
  have honly : e.onEpollEvent p.1 p.2 = e.handleAccept p.2.accepts := by
    obtain ⟨hclosing, hin, hsocket⟩ := haccepts
    unfold onEpollEvent
    rw [if_neg hclosing, if_pos hin, if_pos hsocket]
  rw [honly] at hstep
  split at hstep
  · rename_i hloop
    cases hstep
    obtain ⟨fd, hfd, hclosed⟩ :=
      exists_new_client hc.2 ⟨x, hx, eq_true_of_ne_false haccepted⟩ hloop
    have hwatched := (h fd).2 (Or.inl hfd)
    rw [(of_handleAccept hloop).2.2.2.2.1] at hwatched
    exact hclosed (e.fds.watched_opened hwatched)
  · cases hstep

/-- A positive result of `create_listen_socket` is open, and nothing is registered yet. -/
lemma createListenSocket_empty (conf : ServerConfig) (a : StartAnswers) :
    (createListenSocket conf a .empty).2.2.watched = ∅ ∧
      (0 < (createListenSocket conf a .empty).1 →
        (createListenSocket conf a .empty).1 ∈ (createListenSocket conf a .empty).2.2.opened) := by
  unfold createListenSocket
  split_ifs
  case neg =>
    refine ⟨rfl, fun hpos => ?_⟩
    exact FdTable.mem_opened_acquire.2 (Or.inl ⟨rfl, hpos.le⟩)
  all_goals exact ⟨rfl, fun hpos => by cases hpos⟩

/-- What the first `start()` leaves is right, whatever its calls returned. -/
lemma watched_start (conf : ServerConfig) (a : StartAnswers) :
    (SinglethreadServer.new.start conf a).1.epoll.Watched := by
  obtain ⟨hnone, hopen⟩ := createListenSocket_empty conf a
  generalize hresult : createListenSocket conf a .empty = result at hnone hopen
  obtain ⟨sock, text, fds⟩ := result
  have hquiet : Watched { ServerLightEpoll.new with fds := fds } := by
    intro fd
    rw [hnone]
    simp [ServerLightEpoll.new, LightEpoll.new]
  have hfree : (-1 : Fd) ≤ 0 := by decide
  by_cases hsock : sock < 0
  · obtain ⟨-, -, hepoll⟩ := SinglethreadServer.start_of_neg (s := .new) hresult hsock
    rw [hepoll]
    exact hquiet
  by_cases hadded : 0 < sock ∧ a.added = false
  · obtain ⟨-, -, hepoll⟩ := SinglethreadServer.start_of_startHandle (s := .new) hresult
      (not_lt.1 hsock) (SinglethreadServer.startHandle_of_not_added hfree hadded.1 hadded.2)
    rw [hepoll]
    exact hquiet
  · have hstarts : 0 < sock → a.added = true := fun hpos =>
      eq_true_of_ne_false fun hno => hadded ⟨hpos, hno⟩
    obtain ⟨-, -, hepoll⟩ := SinglethreadServer.start_of_startHandle (s := .new) hresult
      (not_lt.1 hsock) (SinglethreadServer.startHandle_of_started hfree hstarts)
    rw [hepoll]
    intro fd
    show fd ∈ (if decide (0 < sock) then fds.watch sock else fds).watched ↔
      fd ∈ (∅ : Std.ExtTreeMap Fd Stats) ∨ 0 < sock ∧ fd = sock
    by_cases hpos : 0 < sock
    · rw [if_pos (decide_eq_true hpos), FdTable.watched_watch (hopen hpos), hnone]
      simp [hpos]
    · rw [if_neg (by simpa using hpos), hnone]
      simp [hpos]

/-- **Which clients are watched.**  From the first `start()` on, whatever it returned and for any
reports and results, the interest set is `clients` with the listening socket throughout exactly
if no loop of `handle_accept` gets a connection. -/
theorem watched_throughout_iff (conf : ServerConfig) (a : StartAnswers)
    (ps : List (Report × Answers)) :
    Throughout nextReport Watched (SinglethreadServer.new.start conf a).1.epoll ps ↔
      Along nextReport AcceptsNone (SinglethreadServer.new.start conf a).1.epoll ps :=
  preserves_watched.throughout_iff (fun _ h => h)
    (fun _ _ _ _ hstep h => acceptsNone_of_watched hstep h) (watched_start conf a)

/-- The first connection, on descriptor `4`, is counted and not registered. -/
theorem not_watched_after_accept :
    ¬ Throughout nextReport Watched
        (SinglethreadServer.new.start ⟨"0.0.0.0"⟩ ⟨3, true, true, true, true, true⟩).1.epoll
      [(⟨3, ⟨true, false, false, false⟩⟩,
        ⟨.again, [.accepted 4 "127.0.0.1:40000" 0, .again]⟩)] := by
  intro h
  have hend := h.2 _ rfl 4
  exact absurd (hend.2 (Or.inl Std.ExtTreeMap.mem_insertIfNew_self)) (by decide)

end ServerLightEpoll

end ClientServer.Netlib
