import ClientServer.Mync.Ownership

/-!
# Two ways to adopt a connection

`accept_connections` adopts a connection itself where `balance_socket` leaves it, and otherwise
the connection goes through `push_external_socket` to the drain loop of a worker.  `NetEffect` is
what both are to come to, whether `add_fd` succeeds or not.  They agree where it succeeds; where it
fails the first closes the descriptor, and the second keeps it among the clients
(`netEffect_drain_iff`).

So the clients of an object are registered in its epoll set as long as no `add_fd` of a drain
fails.  `Watch` is the process together with the connections that are registered with each epoll
instance, as its calls leave them.  Own descriptors are left out there, and so is the closing of
an epoll instance, which comes after `clients` was emptied.
-/

namespace ClientServer.Mync

open Std (ExtTreeMap)

/-! ## Registered connections -/

/-- What one call leaves registered of `w`; `added fd` is the result of `add_fd`. -/
def watchCall (added : Fd → Bool) (w : Finset Fd) : Call → Finset Fd
  | .epollAdd fd => if added fd then insert fd w else w
  | .epollDel fd => w.erase fd
  | .close fd => w.erase fd
  | _ => w

/-- What several calls leave. -/
def watchedAfter (added : Fd → Bool) (w : Finset Fd) (calls : List Call) : Finset Fd :=
  calls.foldl (watchCall added) w

/-- A call that neither removes nor closes the descriptor. -/
lemma mem_watchCall_iff {added : Fd → Bool} {w : Finset Fd} {c : Call} {fd : Fd}
    (hdel : c ≠ .epollDel fd) (hclose : c ≠ .close fd) :
    fd ∈ watchCall added w c ↔ fd ∈ w ∨ added fd = true ∧ c = .epollAdd fd := by
  cases c with
  | epollAdd fd' =>
    simp only [watchCall, Call.epollAdd.injEq]
    split_ifs with hadded
    · rw [Finset.mem_insert]
      constructor
      · rintro (rfl | hw)
        · exact .inr ⟨hadded, rfl⟩
        · exact .inl hw
      · rintro (hw | ⟨-, rfl⟩)
        · exact .inr hw
        · exact .inl rfl
    · constructor
      · exact fun hw => .inl hw
      · rintro (hw | ⟨htrue, rfl⟩)
        · exact hw
        · exact absurd htrue hadded
  | epollDel fd' =>
    have hne : fd ≠ fd' := fun heq => hdel (by rw [heq])
    simp [watchCall, hne]
  | close fd' =>
    have hne : fd ≠ fd' := fun heq => hclose (by rw [heq])
    simp [watchCall, hne]
  | send fd' bytes => simp [watchCall]
  | sendStats fd' => simp [watchCall]
  | shutdownWrite fd' => simp [watchCall]
  | writeStdout bytes => simp [watchCall]

/-- A descriptor that is neither removed nor closed by any of the calls. -/
lemma mem_watchedAfter_iff {added : Fd → Bool} {w : Finset Fd} {calls : List Call} {fd : Fd}
    (hdel : .epollDel fd ∉ calls) (hclose : .close fd ∉ calls) :
    fd ∈ watchedAfter added w calls ↔ fd ∈ w ∨ added fd = true ∧ .epollAdd fd ∈ calls := by
  induction calls generalizing w with
  | nil => simp [watchedAfter]
  | cons c calls ih =>
    rw [List.mem_cons, not_or] at hdel hclose
    have hrest := ih (w := watchCall added w c) hdel.2 hclose.2
    rw [watchedAfter, List.foldl_cons, ← watchedAfter, hrest,
      mem_watchCall_iff (Ne.symm hdel.1) (Ne.symm hclose.1), List.mem_cons, or_assoc, ← and_or_left,
      eq_comm (a := c)]

/-! ## One connection -/

/-- What it comes to when an object adopts `fd`: the object and the calls are `r`. -/
structure NetEffect (e : Epoll) (w : Finset Fd) (fd : Fd) (st : Stats) (added : Fd → Bool)
    (r : Epoll × List Call) : Prop where
  client : r.1.clients[fd]? = if added fd then some st else none
  registered : fd ∈ watchedAfter added w r.2 ↔ added fd = true
  counted : r.1.sizeClients = if added fd then e.sizeClients + 1 else e.sizeClients
  closed : .close fd ∈ r.2 ↔ added fd = false

section NetEffect

variable {e : Epoll} {w : Finset Fd} {fd : Fd} {st : Stats} {added : Fd → Bool}

/-- The direct way. -/
lemma netEffect_adopt (hclient : fd ∉ e.clients) (hw : fd ∉ w) :
    NetEffect e w fd st added (e.adopt fd st (added fd)) := by
  cases hadded : added fd with
  | false =>
    show NetEffect e w fd st added (e, [.epollAdd fd, .close fd])
    refine ⟨?_, ?_, ?_, ?_⟩
    · rw [hadded]
      exact ExtTreeMap.getElem?_eq_none hclient
    · simp [watchedAfter, watchCall, hadded, hw]
    · rw [hadded]
      rfl
    · simp [hadded]
  | true =>
    show NetEffect e w fd st added ({ e with
      sizeClients := e.sizeClients + 1
      clients := e.clients.insertIfNew fd st }, [.epollAdd fd])
    refine ⟨?_, ?_, ?_, ?_⟩
    · rw [if_pos hadded]
      show (e.clients.insertIfNew fd st)[fd]? = some st
      rw [ExtTreeMap.getElem?_insertIfNew, if_pos ⟨Std.ReflCmp.compare_self, hclient⟩]
    · simp [watchedAfter, watchCall, hadded]
    · rw [hadded]
      rfl
    · simp [hadded]

/-- Turns of the drain loop with other connections. -/
lemma getElem?_foldl_of_not_mem (queue : List (Fd × Stats)) (m : ExtTreeMap Fd Stats)
    (h : fd ∉ queue.map (·.1)) :
    (queue.foldl (fun m c => m.insertIfNew c.1 c.2) m)[fd]? = m[fd]? := by
  induction queue generalizing m with
  | nil => rfl
  | cons c queue ih =>
    rw [List.map_cons, List.mem_cons, not_or] at h
    rw [List.foldl_cons, ih _ h.2, ExtTreeMap.getElem?_insertIfNew, if_neg]
    exact fun hboth => h.1 (Std.LawfulEqCmp.eq_of_compare hboth.1).symm

/-- The way through the queue, with any connections queued before. -/
lemma netEffect_drain_iff (hclient : fd ∉ e.clients)
    (hqueue : fd ∉ e.pendingNewSocks.map (·.1)) :
    NetEffect e w fd st added (e.pushExternalSocket fd st).drain ↔ added fd = true := by
  set queue := e.pendingNewSocks ++ [(fd, st)] with hq
  have hcalls : (e.pushExternalSocket fd st).drain.2 = queue.map fun c => .epollAdd c.1 := rfl
  have hmaps : (e.pushExternalSocket fd st).drain.1.clients =
      queue.foldl (fun m c => m.insertIfNew c.1 c.2) e.clients := rfl
  have hclose : Call.close fd ∉ (e.pushExternalSocket fd st).drain.2 := by
    rw [hcalls]
    simp
  have hdel : Call.epollDel fd ∉ (e.pushExternalSocket fd st).drain.2 := by
    rw [hcalls]
    simp
  have hadd : Call.epollAdd fd ∈ (e.pushExternalSocket fd st).drain.2 := by
    rw [hcalls, hq]
    simp
  constructor
  · intro heffect
    by_contra hadded
    exact hclose (heffect.closed.mpr (Bool.not_eq_true _ ▸ hadded))
  · intro hadded
    refine ⟨?_, ?_, ?_, ?_⟩
    · have hbefore := getElem?_foldl_of_not_mem e.pendingNewSocks e.clients hqueue
      rw [ExtTreeMap.getElem?_eq_none hclient] at hbefore
      rw [hmaps, hq, List.foldl_append, List.foldl_cons, List.foldl_nil, if_pos hadded,
        ExtTreeMap.getElem?_insertIfNew, if_pos]
      refine ⟨Std.ReflCmp.compare_self, ?_⟩
      rw [← ExtTreeMap.isSome_getElem?_iff_mem, hbefore]
      simp
    · rw [mem_watchedAfter_iff hdel hclose]
      exact iff_of_true (.inr ⟨hadded, hadd⟩) hadded
    · rw [if_pos hadded]
      rfl
    · exact iff_of_false hclose (by rw [hadded]; decide)

end NetEffect

/-! ## What stays among the clients -/

namespace Epoll

variable {e e' : Epoll} {fd : Fd}

lemma mem_clients_removeClient {fd' : Fd} (h : fd ∈ (e.removeClient fd').1.clients) :
    .epollDel fd ∉ (e.removeClient fd').2 ∧ fd ∈ e.clients := by
  have herase : fd ∈ e.clients.erase fd' := h
  rw [ExtTreeMap.mem_erase] at herase
  refine ⟨fun hdel => herase.1 ?_, herase.2⟩
  have heq : fd = fd' := by simpa [removeClient] using hdel
  rw [heq]
  exact Std.ReflCmp.compare_self

/-- Handling a report keeps the clients that remain registered. -/
lemma Handled.remaining {r : Report} {a : Answers} {calls : List Call}
    (h : e.Handled r a e' calls) (hwakeup : e.dispatch r ≠ .wakeup) (hfd : fd ∈ e'.clients) :
    .epollDel fd ∉ calls ∧ fd ∈ e.clients := by
  cases h with
  | same hcalls => exact ⟨(hcalls fd).2, hfd⟩
  | flags hcalls => exact ⟨(hcalls fd).2, hfd⟩
  | ticked hcalls => exact ⟨(hcalls fd).2, ExtTreeMap.mem_map.mp hfd⟩
  | drained hd => exact absurd hd hwakeup
  | counted hcalls _ hdata =>
    refine ⟨(hcalls fd).2, ?_⟩
    have halter := ExtTreeMap.mem_alter.mp hfd
    split_ifs at halter with heq
    · exact Std.LawfulEqCmp.eq_of_compare heq ▸ mem_clients_of_dispatch hdata
    · exact halter
  | hungUp => exact mem_clients_removeClient hfd
  | emptied => exact mem_clients_removeClient hfd

lemma epollDel_not_mem_closeOwn (fd fd' : Fd) : Call.epollDel fd ∉ closeOwn fd' := by
  unfold closeOwn
  split_ifs <;> simp

end Epoll

namespace Pc

/-- The thread is in the drain loop. -/
def drains {n : ℕ} : Pc n → Bool
  | .draining _ => true
  | _ => false

end Pc

namespace Thread

variable {n : ℕ} {t t' : Thread n} {shouldStop : Bool} {i : Input} {calls : List Call} {fd : Fd}

/-- The `add_fd` of a turn of the drain loop succeeds. -/
def DrainAdds (t : Thread n) (i : Input) : Prop :=
  t.pc.drains = true → t.epoll.pendingNewSocks ≠ [] → i.added = true

instance (t : Thread n) (i : Input) : Decidable (t.DrainAdds i) :=
  inferInstanceAs (Decidable (_ → _ → _))

lemma mem_clients_stop {stage : Stage} (h : fd ∈ (t.stop stage).1.epoll.clients) :
    .epollDel fd ∉ (t.stop stage).2 ∧ fd ∈ t.epoll.clients := by
  cases stage with
  | clients fds =>
    cases fds with
    | nil => exact absurd h ExtTreeMap.not_mem_empty
    | cons fd' fds => exact Epoll.mem_clients_removeClient h
  | queue =>
    unfold stop at h ⊢
    cases hqueue : t.epoll.pendingNewSocks with
    | nil =>
      simp only [hqueue] at h ⊢
      exact ⟨List.not_mem_nil, h⟩
    | cons c rest =>
      simp only [hqueue] at h ⊢
      exact ⟨by simp [Epoll.stopPending], h⟩
  | socket => exact ⟨Epoll.epollDel_not_mem_closeOwn _ _, h⟩
  | epfd => exact ⟨Epoll.epollDel_not_mem_closeOwn _ _, h⟩
  | timer => exact ⟨Epoll.epollDel_not_mem_closeOwn _ _, h⟩
  | wakeup => exact ⟨Epoll.epollDel_not_mem_closeOwn _ _, h⟩
  | flags => exact ⟨List.not_mem_nil, h⟩

/-- A client of the thread was one before, or it is registered in this step. -/
lemma Advances.mem_clients (h : t.Advances shouldStop i t' calls) (hadds : t.DrainAdds i)
    (hfd : fd ∈ t'.epoll.clients) :
    .epollDel fd ∉ calls ∧ (fd ∈ t.epoll.clients ∨ i.added = true ∧ .epollAdd fd ∈ calls) := by
  cases h with
  | goes h => exact ⟨List.not_mem_nil, .inl hfd⟩
  | handles hpc hwakeup h =>
    obtain ⟨hdel, hold⟩ := h.remaining hwakeup hfd
    exact ⟨hdel, .inl hold⟩
  | drains hpc hqueue =>
    refine ⟨by simp [Epoll.drainOne], ?_⟩
    rcases ExtTreeMap.mem_insertIfNew.mp hfd with hnew | hold
    · obtain rfl := Std.LawfulEqCmp.eq_of_compare hnew
      refine .inr ⟨hadds (by rw [hpc]; rfl) (by simp [hqueue]), by simp [Epoll.drainOne]⟩
    · exact .inl hold
  | adopts hpc =>
    cases hadded : i.added with
    | false =>
      rw [hadded] at hfd
      exact ⟨by simp [Epoll.adopt], .inl hfd⟩
    | true =>
      rw [hadded] at hfd
      refine ⟨by simp [Epoll.adopt], ?_⟩
      rcases ExtTreeMap.mem_insertIfNew.mp hfd with hnew | hold
      · obtain rfl := Std.LawfulEqCmp.eq_of_compare hnew
        exact .inr ⟨rfl, by simp [Epoll.adopt]⟩
      · exact .inl hold
  | stops hpc =>
    obtain ⟨hdel, hold⟩ := mem_clients_stop hfd
    exact ⟨hdel, .inl hold⟩

end Thread

/-! ## The process -/

namespace Server

variable {n : ℕ} {s s' : Server n} {t : Agent n}

lemma epoll_goto (s : Server n) (t a : Agent n) (pc : Pc n) :
    ((s.goto t pc).threads a).epoll = (s.threads a).epoll := by
  by_cases ha : a = t
  · subst ha
    show (Function.update s.threads a _ a).epoll = _
    rw [Function.update_self]
  · rw [threads_goto_of_ne _ _ ha]

lemma clients_push (s : Server n) (w : Fin n) (a : Agent n) (fd : Fd) (st : Stats) :
    ((s.push w fd st).threads a).epoll.clients = (s.threads a).epoll.clients := by
  by_cases ha : a = some w
  · subst ha
    rw [threads_push_self]
    rfl
  · rw [threads_push_of_ne _ _ _ ha]

/-- Only a thread that goes on by itself changes clients or makes calls. -/
lemma Steps.clients_cases {i : Input} {calls : List Call} (h : s.Steps (.run t i) s' calls) :
    (calls = [] ∧ ∀ a, (s'.threads a).epoll.clients = (s.threads a).epoll.clients) ∨
      ∃ t', (s.threads t).Advances s.shouldStop i t' calls ∧ s' = s.put t t' calls := by
  cases h with
  | advance h => exact .inr ⟨_, h, rfl⟩
  | abort => exact .inl ⟨rfl, fun a => rfl⟩
  | push hpc hlocks =>
    refine .inl ⟨rfl, fun a => ?_⟩
    rw [clients_push, epoll_goto]
  | accept => exact .inl ⟨rfl, fun a => congrArg Epoll.clients (epoll_goto s t a _)⟩
  | acceptedAll => exact .inl ⟨rfl, fun a => congrArg Epoll.clients (epoll_goto s t a _)⟩
  | compare => exact .inl ⟨rfl, fun a => congrArg Epoll.clients (epoll_goto s t a _)⟩
  | choose => exact .inl ⟨rfl, fun a => congrArg Epoll.clients (epoll_goto s t a _)⟩
  | destroy => exact .inl ⟨rfl, fun a => congrArg Epoll.clients (epoll_goto s t a _)⟩

/-- A signal and `epoll_wait` change no clients. -/
lemma Steps.clients_eq {a : ServerAct n} {calls : List Call} (h : s.Steps a s' calls)
    (ha : ∀ t i, a ≠ .run t i) (t : Agent n) :
    (s'.threads t).epoll.clients = (s.threads t).epoll.clients := by
  cases h with
  | signal => rfl
  | wait => exact congrArg Epoll.clients (epoll_goto s _ t _)
  | _ => exact absurd rfl (ha _ _)

end Server

/-- The process, and the connections that are registered with each object's epoll instance. -/
structure Watch (n : ℕ) where
  server : Server n
  watched : Agent n → Finset Fd

namespace Watch

variable {n : ℕ}

/-- When all threads are at the start of `exec` there are no connections. -/
def new (setup : Setup n) : Watch n := ⟨.new setup, fun _ => ∅⟩

/-- What calls of thread `t` leave registered: its own registrations change, and a descriptor
that is closed is in no epoll set. -/
def watch (watched : Agent n → Finset Fd) (t : Agent n) (added : Bool) (calls : List Call) :
    Agent n → Finset Fd := fun t' =>
  if t' = t then watchedAfter (fun _ => added) (watched t) calls
  else watched t' \ (closes calls).toFinset

/-- One step. -/
def step (s : Watch n) (a : ServerAct n) : Option (Watch n) :=
  (s.server.outcome a).map fun (server, calls) =>
    match a with
    | .run t i => ⟨server, watch s.watched t i.added calls⟩
    | _ => ⟨server, s.watched⟩

/-- Every client of every object is registered in the object's epoll set. -/
def ClientsRegistered (s : Watch n) : Prop :=
  ∀ t, ∀ fd ∈ (s.server.threads t).epoll.clients, fd ∈ s.watched t

instance : DecidablePred (ClientsRegistered (n := n)) := fun s =>
  decidable_of_iff (∀ t, ∀ fd ∈ (s.server.threads t).epoll.clients.keys, fd ∈ s.watched t)
    (by simp only [ExtTreeMap.mem_keys]; exact Iff.rfl)

/-- Every `add_fd` of a drain succeeds, and no descriptor is hung up that is no client. -/
def DrainsAdd (s : Watch n) (a : ServerAct n) : Prop :=
  s.server.NoForeignHangup a ∧
    match a with
    | .run t i => (s.server.threads t).DrainAdds i
    | _ => True

instance (s : Watch n) : DecidablePred s.DrainsAdd := fun
  | .run t i => inferInstanceAs (Decidable (_ ∧ (s.server.threads t).DrainAdds i))
  | .signal | .wait _ _ => inferInstanceAs (Decidable (_ ∧ True))

/-- What the registrations rest on. -/
structure Registers (s : Watch n) : Prop where
  owned : s.server.Owned
  registered : s.ClientsRegistered

lemma registers_new (setup : Setup n) : (new setup).Registers := by
  refine ⟨Server.owned_new setup, fun t fd hfd => ?_⟩
  have hempty : ((Server.new setup).threads t).epoll.clients = ∅ := by
    show (setup.epoll t).clients = ∅
    cases t <;> rfl
  rw [show (new setup).server = Server.new setup from rfl, hempty] at hfd
  exact absurd hfd ExtTreeMap.not_mem_empty

/-- A step of thread `t` after which its clients are registered. -/
lemma clientsRegistered_watch {s : Watch n} {server : Server n} {t : Agent n} {added : Bool}
    {calls : List Call} (h : s.ClientsRegistered) (howned : server.Owned)
    (hopened : ∀ fd ∈ closes calls, fd ∉ server.opened)
    (hother : ∀ t' ≠ t, ∀ fd ∈ (server.threads t').epoll.clients,
      fd ∈ (s.server.threads t').epoll.clients)
    (hself : ∀ fd ∈ (server.threads t).epoll.clients, .epollDel fd ∉ calls ∧
      (fd ∈ (s.server.threads t).epoll.clients ∨ added = true ∧ .epollAdd fd ∈ calls)) :
    (⟨server, watch s.watched t added calls⟩ : Watch n).ClientsRegistered := by
  intro t' fd hfd
  -- a client is held, so it is open after the step and was not closed in it
  have hheld : fd ∈ (server.threads t').held := by
    unfold Thread.held Epoll.held
    simp only [Multiset.mem_add, Multiset.mem_coe, ExtTreeMap.mem_keys]
    exact .inl (.inl (.inr hfd))
  have hopen : fd ∉ closes calls := fun hclosed =>
    hopened fd hclosed (howned.exclusive.mem_used (i := t') hheld)
  show fd ∈ watch s.watched t added calls t'
  unfold watch
  split_ifs with ht
  · subst ht
    obtain ⟨hdel, hold⟩ := hself fd hfd
    rw [mem_watchedAfter_iff hdel fun hclose => hopen (mem_closes.mpr hclose)]
    exact hold.imp_left (h t' fd)
  · rw [Finset.mem_sdiff, List.mem_toFinset]
    exact ⟨h t' fd (hother t' ht fd hfd), hopen⟩

lemma preserves_registers : Preserves step (DrainsAdd (n := n)) Registers := by
  rintro s a s' hs ⟨hhang, hadds⟩ hstep
  obtain ⟨⟨server, calls⟩, hout, hs'⟩ := Option.map_eq_some_iff.mp hstep
  have hsteps := Server.steps_of_outcome hout
  have howned : server.Owned := hs.owned.steps hhang hsteps
  cases a with
  | signal =>
    cases hs'
    refine ⟨howned, fun t fd hfd => hs.registered t fd ?_⟩
    rwa [hsteps.clients_eq (by simp) t] at hfd
  | wait t batch =>
    cases hs'
    refine ⟨howned, fun t fd hfd => hs.registered t fd ?_⟩
    rwa [hsteps.clients_eq (by simp) t] at hfd
  | run t i =>
    cases hs'
    refine ⟨howned, clientsRegistered_watch hs.registered howned ?_ ?_ ?_⟩
    all_goals rcases hsteps.clients_cases with ⟨rfl, hclients⟩ | ⟨t', hadv, rfl⟩
    · exact fun fd hfd => absurd hfd List.not_mem_nil
    · intro fd hfd hopened
      have hdiff : fd ∈ s.server.opened \ (closes calls).toFinset := hopened
      exact (Finset.mem_sdiff.mp hdiff).2 (List.mem_toFinset.mpr hfd)
    · intro a _ fd hfd
      rwa [hclients a] at hfd
    · intro a ha fd hfd
      have hsame : (s.server.put t t' calls).threads a = s.server.threads a :=
        Function.update_of_ne ha ..
      rwa [hsame] at hfd
    · intro fd hfd
      rw [hclients t] at hfd
      exact ⟨List.not_mem_nil, .inl hfd⟩
    · intro fd hfd
      have hself : (s.server.put t t' calls).threads t = t' := Function.update_self ..
      rw [hself] at hfd
      exact hadv.mem_clients hadds hfd

end Watch

/-- **When the two ways of adopting a connection agree.**  The direct way always has the net
effect, and the way through the queue exactly if `add_fd` succeeds.  In a run the clients are
registered throughout if no `add_fd` of a drain fails and no descriptor is hung up that is no
client. -/
theorem adoptions_agree_iff {n : ℕ} (setup : Setup n) (as : List (ServerAct n)) {e : Epoll}
    {w : Finset Fd} {fd : Fd} (st : Stats) (added : Fd → Bool) (hclient : fd ∉ e.clients)
    (hqueue : fd ∉ e.pendingNewSocks.map (·.1)) (hw : fd ∉ w) :
    (NetEffect e w fd st added (e.adopt fd st (added fd)) ∧
      (NetEffect e w fd st added (e.pushExternalSocket fd st).drain ↔ added fd = true)) ∧
    (Along Watch.step Watch.DrainsAdd (.new setup) as →
      Throughout Watch.step Watch.ClientsRegistered (.new setup) as) := by
  refine ⟨⟨netEffect_adopt hclient hw, netEffect_drain_iff hclient hqueue⟩, fun h => ?_⟩
  exact Watch.preserves_registers.throughout (fun _ hs => hs.registered)
    (Watch.registers_new setup) h

/-- The main thread accepts a connection and pushes it to the worker, whose `add_fd` returns
`added`. -/
def oneConnection (added : Bool) : List (ServerAct 1) :=
  [.run none (Server.accepting .again), .wait none [⟨3, ⟨true, false, false, false⟩⟩],
    .run none (Server.accepting .again), .run none (Server.accepting (.accepted 10 "" 0)),
    .run none (Server.accepting .again), .run none (Server.accepting .again),
    .run (some 0) (Server.accepting .again), .wait (some 0) [⟨8, ⟨true, false, false, false⟩⟩],
    .run (some 0) (Server.accepting .again),
    .run (some 0) { Server.accepting .again with added := added }]

/-- The object of a new worker. -/
def newWorker : Epoll := .new (-1) false false 7 8 9

/-- A connection that is registered, in both ways and in a run. -/
theorem adoptions_agree_iff_one_connection :
    (NetEffect newWorker ∅ 10 (Stats.new 0) (fun _ => true)
        (newWorker.adopt 10 (Stats.new 0) true) ∧
      (NetEffect newWorker ∅ 10 (Stats.new 0) (fun _ => true)
        (newWorker.pushExternalSocket 10 (Stats.new 0)).drain ↔ true = true)) ∧
    Throughout Watch.step Watch.ClientsRegistered (.new Setup.oneWorker) (oneConnection true) :=
  (adoptions_agree_iff Setup.oneWorker (oneConnection true) (Stats.new 0) (fun _ => true)
    ExtTreeMap.not_mem_empty List.not_mem_nil (Finset.notMem_empty 10)).imp_right
      fun hrun => hrun (by decide)

/-- Where `add_fd` fails in the drain the connection stays a client, unregistered and open. -/
theorem not_adoptions_agree_add_fails :
    ¬ NetEffect newWorker ∅ 10 (Stats.new 0) (fun _ => false)
        (newWorker.pushExternalSocket 10 (Stats.new 0)).drain ∧
    ¬ Throughout Watch.step Watch.ClientsRegistered (.new Setup.oneWorker)
        (oneConnection false) := by
  constructor
  · intro heffect
    have hclosed := heffect.closed.mpr rfl
    exact absurd hclosed (by decide)
  · decide

end ClientServer.Mync
