import ClientServer.Netlib.LightEpoll

/-!
# The clients whose loss is announced

`ServerLightEpoll` passes `ClientDisconnect` on in the hang-up branch of `on_epoll_event`, and
removes a client there and in `handle_client_data`.  `Tally` counts both over any sequence of
reports: the notifications and the entries that left `clients`.

The hang-up branch does not ask whether the descriptor is a client, and `handle_client_data`
announces nothing, so the two counts are equal throughout exactly the sequences in which clients
are lost by hang-ups only and only clients hang up (`tallies_throughout_iff`).
-/

namespace ClientServer.Netlib

open Std (ExtTreeMap)
open Mync (Fd Report ReadAnswer)

namespace ServerLightEpoll

/-- `ServerLightEpoll::on_epoll_event`, with the event it passes on. -/
def onEpollEventNotified (e : ServerLightEpoll) (r : Report) (a : Answers) :
    Option (Except String (ServerLightEpoll × Option EventType)) :=
  if r.events.closing then
    if r.fd = e.socket then some (.ok ({ e with needStop := true }, none))
    else some (.ok (e.removeClient r.fd, some .clientDisconnect))
  else (e.onEpollEvent r a).map fun result => result.map (·, none)

/-- Without the event it is `onEpollEvent`. -/
lemma map_fst_onEpollEventNotified (e : ServerLightEpoll) (r : Report) (a : Answers) :
    (e.onEpollEventNotified r a).map (fun result => result.map (·.1)) = e.onEpollEvent r a := by
  unfold onEpollEventNotified
  split_ifs with hclosing hsocket
  · rw [onEpollEvent, if_pos hclosing, if_pos hsocket]
    rfl
  · rw [onEpollEvent, if_pos hclosing, if_neg hsocket]
    rfl
  · cases e.onEpollEvent r a with
    | none => rfl
    | some result => cases result <;> rfl

/-- How many entries of `clients` are gone in `e'`. -/
def lost (e e' : ServerLightEpoll) : ℕ := e.clients.keys.countP fun fd => fd ∉ e'.clients

variable {e : ServerLightEpoll} {fd : Fd}

lemma lost_of_keys {e' : ServerLightEpoll} (h : ∀ fd, fd ∈ e.clients → fd ∈ e'.clients) :
    e.lost e' = 0 := by
  rw [lost, List.countP_eq_zero]
  intro fd hfd
  simpa using h fd (ExtTreeMap.mem_keys.mp hfd)

lemma lost_removeClient : e.lost (e.removeClient fd) = if fd ∈ e.clients then 1 else 0 := by
  have hgone : ∀ x ∈ e.clients.keys,
      (decide (x ∉ (e.removeClient fd).clients) = true ↔ (x == fd) = true) := by
    intro x hx
    have hmem : x ∈ (e.removeClient fd).clients ↔ x ≠ fd ∧ x ∈ e.clients := by
      show x ∈ e.clients.erase fd ↔ _
      rw [ExtTreeMap.mem_erase, ne_eq, Std.LawfulEqCmp.compare_eq_iff_eq, eq_comm]
    rw [decide_eq_true_iff, hmem, beq_iff_eq]
    have := ExtTreeMap.mem_keys.mp hx
    tauto
  rw [lost, List.countP_congr hgone, ← List.count]
  split_ifs with hfd
  · exact List.count_eq_one_of_mem e.clients.nodup_keys (ExtTreeMap.mem_keys.mpr hfd)
  · exact List.count_eq_zero_of_not_mem fun h => hfd (ExtTreeMap.mem_keys.mp h)

/-- In the data branch a client is lost exactly if no bytes come. -/
lemma lost_handleClientData (hfd : fd ∈ e.clients) (a : ReadAnswer) :
    e.lost (e.handleClientData fd a) = 0 ↔ ∃ chunk, a = .data chunk := by
  have hremove : ¬ e.lost (e.removeClient fd) = 0 := by
    rw [lost_removeClient, if_pos hfd]
    exact Nat.one_ne_zero
  cases a with
  | data chunk =>
    refine iff_of_true (lost_of_keys fun x hx => ?_) ⟨chunk, rfl⟩
    show x ∈ e.clients.alter fd _
    rw [ExtTreeMap.mem_alter]
    split_ifs with heq
    · rfl
    · exact hx
  | eof => exact iff_of_false hremove (by simp)
  | again => exact iff_of_false hremove (by simp)
  | error => exact iff_of_false hremove (by simp)

end ServerLightEpoll

/-- The object, and what was announced and lost so far. -/
structure Tally where
  epoll : ServerLightEpoll
  announced : ℕ
  lost : ℕ

namespace Tally

open ServerLightEpoll (Answers)

/-- Nothing has happened yet. -/
def start (e : ServerLightEpoll) : Tally := ⟨e, 0, 0⟩

/-- One call of `on_epoll_event` for a descriptor that is not the listening socket. -/
def step (s : Tally) (p : Report × Answers) : Option Tally :=
  if p.1.fd = s.epoll.socket then none
  else
    match s.epoll.onEpollEventNotified p.1 p.2 with
    | some (.ok (e, event)) => some
      { epoll := e
        announced := s.announced + if event = some .clientDisconnect then 1 else 0
        lost := s.lost + s.epoll.lost e }
    | _ => none

/-- Every client lost was announced once, and nothing else. -/
def Tallies (s : Tally) : Prop := s.announced = s.lost

instance : DecidablePred Tallies := fun _ => inferInstanceAs (Decidable (_ = _))

/-- Only a client hangs up, and a client that has data is not at the end of its stream. -/
def LosesByHangup (s : Tally) (p : Report × Answers) : Prop :=
  if p.1.events.closing then p.1.fd ∈ s.epoll.clients
  else p.1.events.epollin → p.1.fd ∈ s.epoll.clients → ∃ chunk, p.2.recv = .data chunk

variable {s s' : Tally} {p : Report × Answers}

/-- A hang-up is announced, whosever it is. -/
lemma of_step_closing (hclosing : p.1.events.closing = true) (h : s.step p = some s') :
    s'.announced = s.announced + 1 ∧
      s'.lost = s.lost + if p.1.fd ∈ s.epoll.clients then 1 else 0 := by
  unfold step at h
  split_ifs at h with hsocket
  simp only [ServerLightEpoll.onEpollEventNotified, if_pos hclosing, if_neg hsocket,
    ServerLightEpoll.lost_removeClient] at h
  cases h
  exact ⟨rfl, rfl⟩

/-- Nothing else is announced, but clients are lost. -/
lemma of_step_open (hclosing : ¬ p.1.events.closing = true) (h : s.step p = some s') :
    s'.announced = s.announced ∧
      (s'.lost = s.lost ↔
        (p.1.events.epollin = true → p.1.fd ∈ s.epoll.clients →
          ∃ chunk, p.2.recv = .data chunk)) := by
  unfold step at h
  split_ifs at h with hsocket
  have haccept : ¬ (0 < s.epoll.socket ∧ p.1.fd = s.epoll.socket) := fun h => hsocket h.2
  simp only [ServerLightEpoll.onEpollEventNotified, ServerLightEpoll.onEpollEvent,
    if_neg hclosing, if_neg haccept] at h
  split_ifs at h with hin hmem
  · cases h
    refine ⟨rfl, ?_⟩
    rw [← ServerLightEpoll.lost_handleClientData hmem]
    constructor
    · intro hlost _ _
      exact Nat.add_eq_left.mp hlost
    · intro hlost
      exact Nat.add_eq_left.mpr (hlost hin hmem)
  · cases h
    refine ⟨rfl, iff_of_true ?_ fun _ hfd => absurd hfd hmem⟩
    exact Nat.add_eq_left.mpr (ServerLightEpoll.lost_of_keys fun _ hfd => hfd)
  · cases h
    refine ⟨rfl, iff_of_true ?_ fun hin' => absurd hin' hin⟩
    exact Nat.add_eq_left.mpr (ServerLightEpoll.lost_of_keys fun _ hfd => hfd)

/-- One step keeps the two counts equal exactly if a client is lost by a hang-up only. -/
lemma tallies_step_iff (hs : s.Tallies) (h : s.step p = some s') :
    s'.Tallies ↔ s.LosesByHangup p := by
  unfold Tallies at hs ⊢
  unfold LosesByHangup
  split_ifs with hclosing
  · obtain ⟨hannounced, hlost⟩ := of_step_closing hclosing h
    rw [hannounced, hlost, hs, Nat.add_left_cancel_iff]
    by_cases hfd : p.1.fd ∈ s.epoll.clients
    · rw [if_pos hfd]
      exact iff_of_true rfl hfd
    · rw [if_neg hfd]
      exact iff_of_false Nat.one_ne_zero hfd
  · obtain ⟨hannounced, hlost⟩ := of_step_open hclosing h
    rw [hannounced, hs, eq_comm, hlost]

/-- **When each lost client is announced once.**  From any state, over any sequence of reports and
any answers, the two counts are equal throughout exactly if only clients hang up and no client is
lost to a `recv` without bytes. -/
theorem tallies_throughout_iff (e : ServerLightEpoll) (ps : List (Report × Answers)) :
    Throughout step Tallies (start e) ps ↔ Along step LosesByHangup (start e) ps := by
  have hpres : Preserves step LosesByHangup Tallies :=
    fun s p s' hs hloses h => (tallies_step_iff hs h).mpr hloses
  exact hpres.throughout_iff (fun _ hs => hs)
    (fun s p s' hs h htallies => (tallies_step_iff hs h).mp htallies) rfl

/-- A client closes its connection, and nobody is told. -/
theorem not_tallies_recv_zero :
    ¬ ∀ (e : ServerLightEpoll) (ps : List (Report × Answers)),
      Throughout step Tallies (start e) ps := by
  intro hall
  exact absurd (hall (ServerLightEpoll.new.addClient 5 "" 0)
    [(⟨5, ⟨true, false, false, false⟩⟩, ⟨.eof, []⟩)]) (by decide)

end Tally

end ClientServer.Netlib
