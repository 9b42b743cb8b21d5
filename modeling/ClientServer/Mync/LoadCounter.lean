import ClientServer.Mync.Ownership

/-!
# The load counter

`size_clients` is kept beside the map and the queue it counts, and is updated in four places: a
direct accept, a push by another thread, a removal and the end of `fullstop`.  It is exact as
long as what a thread removes is one of its clients, which the hang-up branch does not check.

That a drained or accepted connection is new in `clients` comes from ownership: nobody else can
have its number.
-/

namespace ClientServer.Mync

open Std (ExtTreeMap)

namespace Pc

variable {n : ℕ}

/-- `fullstop` has begun; it resets the counter at its end. -/
def stops : Pc n → Bool
  | .stopping _ => true
  | .deleted => true
  | _ => false

end Pc

/-- `size_clients` is the number of entries in `clients` and in the queue. -/
def Epoll.Exact (e : Epoll) : Prop :=
  e.sizeClients = e.clients.size + e.pendingNewSocks.length

instance (e : Epoll) : Decidable e.Exact := inferInstanceAs (Decidable (_ = _))

/-- The counter of the thread's object is exact, until `fullstop` begins. -/
def Thread.CountsExactly {n : ℕ} (t : Thread n) : Prop := t.pc.stops = false → t.epoll.Exact

instance {n : ℕ} (t : Thread n) : Decidable t.CountsExactly :=
  inferInstanceAs (Decidable (_ → _))

/-! ## One thread -/

namespace Epoll.Exact

variable {e e' : Epoll} {fd : Fd} {st : Stats}

lemma removeClient (h : e.Exact) (hfd : fd ∈ e.clients) : (e.removeClient fd).1.Exact := by
  have hpos : e.clients.size ≠ 0 := by
    intro hzero
    rw [← ExtTreeMap.eq_empty_iff_size_eq_zero] at hzero
    rw [hzero] at hfd
    exact absurd hfd ExtTreeMap.not_mem_empty
  show e.sizeClients - 1 = ((e.clients.erase fd).size : ℤ) + e.pendingNewSocks.length
  rw [ExtTreeMap.size_erase, if_pos (ExtTreeMap.contains_iff_mem.mpr hfd), h]
  omega

lemma pushExternalSocket (h : e.Exact) : (e.pushExternalSocket fd st).Exact := by
  show e.sizeClients + 1 = (e.clients.size : ℤ) + (e.pendingNewSocks ++ [(fd, st)]).length
  rw [List.length_append, List.length_singleton, h]
  omega

lemma drainOne (h : e.Exact) {queue : List (Fd × Stats)}
    (hqueue : e.pendingNewSocks = (fd, st) :: queue) (hfd : fd ∉ e.clients) :
    (e.drainOne fd st queue).1.Exact := by
  show e.sizeClients = ((e.clients.insertIfNew fd st).size : ℤ) + queue.length
  rw [ExtTreeMap.size_insertIfNew, if_neg hfd, h, hqueue, List.length_cons]
  omega

lemma adopt (h : e.Exact) (hfd : fd ∉ e.clients) (added : Bool) :
    (e.adopt fd st added).1.Exact := by
  cases added with
  | false => exact h
  | true =>
    show e.sizeClients + 1 = ((e.clients.insertIfNew fd st).size : ℤ) + e.pendingNewSocks.length
    rw [ExtTreeMap.size_insertIfNew, if_neg hfd, h]
    omega

lemma countBytes (h : e.Exact) (hfd : fd ∈ e.clients) (k now : ℕ) :
    (e.countBytes fd k now).Exact := by
  show e.sizeClients = ((e.clients.alter fd _).size : ℤ) + e.pendingNewSocks.length
  rw [ExtTreeMap.size_alter_eq_self_of_mem hfd rfl]
  exact h

/-- A report keeps the counter exact, unless it hangs up a descriptor that is no client. -/
lemma handled (h : e.Exact) {r : Report} {a : Answers} {calls : List Call}
    (hhandled : e.Handled r a e' calls)
    (hclient : e.dispatch r = .removeClient → r.fd ∈ e.clients)
    (hwakeup : e.dispatch r ≠ .wakeup) : e'.Exact := by
  cases hhandled with
  | same => exact h
  | flags => exact h
  | ticked =>
    show e.sizeClients = ((e.clients.map _).size : ℤ) + e.pendingNewSocks.length
    rw [ExtTreeMap.size_map]
    exact h
  | drained hd => exact absurd hd hwakeup
  | counted _ _ hdata => exact h.countBytes (mem_clients_of_dispatch hdata) _ _
  | hungUp hremove => exact h.removeClient (hclient hremove)
  | emptied _ hdata => exact h.removeClient (mem_clients_of_dispatch hdata)

end Epoll.Exact

namespace Thread

variable {n : ℕ} {t t' : Thread n} {shouldStop : Bool} {i : Input} {calls : List Call}

lemma Goes.stops_eq {pc : Pc n} (h : t.Goes shouldStop pc) (hpc : pc.stops = false) :
    t.pc.stops = false := by
  cases h with
  | stays => exact hpc
  | ends h | loops h | again h | locks h | unlocks h | woken h | counts h | prints h =>
    rw [h]
    rfl

/-- A connection in the queue or in the hand of a thread is none of its clients. -/
lemma not_mem_clients_of_held {fd : Fd} (h : t.held.Nodup)
    (hfd : fd ∈ t.epoll.pendingNewSocks.map (·.1) ∨ fd ∈ t.pc.hand) : fd ∉ t.epoll.clients := by
  intro hclient
  have hkey : fd ∈ (t.epoll.clients.keys : Multiset Fd) :=
    Multiset.mem_coe.mpr (ExtTreeMap.mem_keys.mpr hclient)
  unfold held Epoll.held at h
  obtain ⟨hobject, -, hhand⟩ := Multiset.nodup_add.mp h
  obtain ⟨-, -, hqueue⟩ := Multiset.nodup_add.mp hobject
  rcases hfd with hfd | hfd
  · exact Multiset.disjoint_left.mp hqueue (Multiset.mem_add.mpr (Or.inr hkey)) hfd
  · refine Multiset.disjoint_left.mp hhand (Multiset.mem_add.mpr (Or.inl ?_)) hfd
    exact Multiset.mem_add.mpr (Or.inr hkey)

lemma stops_stop (stage : Stage) : (t.stop stage).1.pc.stops = true := by
  rcases t.pc_stop stage with ⟨_, h⟩ | h <;> rw [h] <;> rfl

/-- A thread that goes on by itself keeps its counter exact. -/
lemma Advances.countsExactly (h : t.Advances shouldStop i t' calls) (hexact : t.CountsExactly)
    (hnodup : t.held.Nodup)
    (hclient : ∀ r ∈ t.pc.report?, t.epoll.dispatch r = .removeClient → r.fd ∈ t.epoll.clients) :
    t'.CountsExactly := by
  cases h with
  | goes h => exact fun hpc => hexact (h.stops_eq hpc)
  | handles hpc hwakeup h =>
    have hnow : t.epoll.Exact := hexact (by rw [hpc]; rfl)
    exact fun _ => hnow.handled h (hclient _ (by rw [hpc]; rfl)) hwakeup
  | @drains rest fd st queue hpc hqueue =>
    have hnow : t.epoll.Exact := hexact (by rw [hpc]; rfl)
    have hfd : fd ∉ t.epoll.clients :=
      not_mem_clients_of_held hnodup (Or.inl (by rw [hqueue]; exact List.mem_cons_self ..))
    exact fun _ => hnow.drainOne hqueue hfd
  | @adopts fd st rest hpc =>
    have hnow : t.epoll.Exact := hexact (by rw [hpc]; rfl)
    have hfd : fd ∉ t.epoll.clients :=
      not_mem_clients_of_held hnodup (Or.inr (by rw [hpc]; exact Multiset.mem_singleton_self fd))
    exact fun _ => hnow.adopt hfd i.added
  | stops hpc => exact fun hgone => absurd hgone (by rw [stops_stop]; simp)

end Thread

/-! ## The process -/

namespace Server

variable {n : ℕ} {s s' : Server n} {t : Agent n}

/-- The load counter of every object is exact. -/
def CountsExactly (s : Server n) : Prop := ∀ t, (s.threads t).CountsExactly

instance : DecidablePred (CountsExactly (n := n)) := fun s =>
  inferInstanceAs (Decidable (∀ t, (s.threads t).CountsExactly))

lemma CountsExactly.update (h : s.CountsExactly) {t' : Thread n} (ht' : t'.CountsExactly) :
    ∀ a, (Function.update s.threads t t' a).CountsExactly :=
  (Function.forall_update_iff s.threads fun _ => Thread.CountsExactly).mpr ⟨ht', fun a _ => h a⟩

/-- A thread whose object stays as it is. -/
lemma CountsExactly.goto (h : s.CountsExactly) {pc : Pc n}
    (hpc : pc.stops = false → (s.threads t).pc.stops = false) : (s.goto t pc).CountsExactly :=
  h.update fun hgo => h t (hpc hgo)

/-- The step lemma: only a hang-up on a descriptor that is no client makes a counter wrong. -/
lemma CountsExactly.steps {a : ServerAct n} {calls : List Call} (h : s.CountsExactly)
    (howned : s.Owned) (hhang : s.NoForeignHangup a) (hsteps : s.Steps a s' calls) :
    s'.CountsExactly := by
  cases hsteps with
  | signal => exact h
  | abort => exact h
  | wait hreturns => exact h.goto fun _ => by rw [hreturns.1]; rfl
  | accept hpc => exact h.goto fun _ => by rw [hpc]; rfl
  | acceptedAll hpc => exact h.goto fun _ => by rw [hpc]; rfl
  | compare hpc hk => exact h.goto fun _ => by rw [hpc]; rfl
  | choose hpc hk => exact h.goto fun _ => by rw [hpc]; rfl
  | @push t i fd st w rest hpc hlocks =>
    have hmid : (s.goto t (.waking w rest)).CountsExactly := h.goto fun _ => by rw [hpc]; rfl
    exact hmid.update fun hgo => (hmid (some w) hgo).pushExternalSocket
  | destroy hpc hjoin => exact h.goto fun hgo => by cases hgo
  | advance hadv =>
    exact h.update (hadv.countsExactly (h _) (howned.exclusive.nodup_held _) hhang)

lemma countsExactly_new (setup : Setup n) : (new setup).CountsExactly := by
  intro t _
  show (setup.epoll t).Exact
  cases t <;> rfl

/-- What the counters rest on. -/
def Counted (s : Server n) : Prop := s.Owned ∧ s.CountsExactly

lemma preserves_counted : Preserves next (NoForeignHangup (n := n)) Counted := by
  rintro s a s' ⟨howned, hexact⟩ hhang hstep
  obtain ⟨calls, hsteps⟩ := steps_of_next hstep
  exact ⟨howned.steps hhang hsteps, hexact.steps howned hhang hsteps⟩

/-- A removal of a descriptor that is no client takes one off the counter and nothing off what
it counts. -/
lemma not_exact_removeClient {e : Epoll} {fd : Fd} (h : e.Exact) (hfd : fd ∉ e.clients) :
    ¬ (e.removeClient fd).1.Exact := by
  show ¬ (e.sizeClients - 1 = ((e.clients.erase fd).size : ℤ) + e.pendingNewSocks.length)
  rw [ExtTreeMap.size_erase, if_neg (by rwa [ExtTreeMap.contains_iff_mem]), h]
  omega

/-- The hang-up branch as a step of the process. -/
lemma outcome_hangup {i : Input} {r : Report} (hrun : s.aborted = false)
    (hr : r ∈ (s.threads t).pc.report?) (hremove : (s.threads t).epoll.dispatch r = .removeClient) :
    ∃ rest, s.outcome (.run t i) =
      some (s.put t ⟨((s.threads t).epoll.removeClient r.fd).1, .events rest⟩
        ((s.threads t).epoll.removeClient r.fd).2, ((s.threads t).epoll.removeClient r.fd).2) := by
  obtain ⟨rest, hpc⟩ := Pc.report?_eq_some.mp hr
  refine ⟨rest, ?_⟩
  simp [outcome, hrun, runThread, hpc, Thread.advance, Thread.handle, hremove, Epoll.handleReport,
    Except.map, Pc.after]

/-- After a foreign hang-up the counter is wrong. -/
lemma noForeignHangup_of_countsExactly {a : ServerAct n} (h : s.CountsExactly)
    (hstep : s.next a = some s') (h' : s'.CountsExactly) : s.NoForeignHangup a := by
  cases a with
  | signal => trivial
  | wait => trivial
  | run t i =>
    intro r hr hremove
    by_contra hfd
    obtain ⟨calls, hout⟩ := next_eq_some.mp hstep
    have hrun : s.aborted = false := by
      by_contra haborted
      simp [outcome, haborted] at hout
    obtain ⟨rest, hhang⟩ := outcome_hangup (i := i) hrun hr hremove
    rw [hhang] at hout
    cases hout
    have hexact : (s.threads t).epoll.Exact := h t (by
      obtain ⟨rest, hpc⟩ := Pc.report?_eq_some.mp hr
      rw [hpc]
      rfl)
    have hafter := h' t
    unfold put at hafter
    dsimp only at hafter
    rw [Function.update_self] at hafter
    exact not_exact_removeClient hexact hfd (hafter rfl)

/-- **The load counters are exact throughout exactly the runs without a foreign hang-up.**  Any
number of workers, any descriptors the kernel hands out, and any interleaving. -/
theorem countsExactly_throughout_iff (setup : Setup n) (as : List (ServerAct n)) :
    Throughout next CountsExactly (new setup) as ↔ Along next NoForeignHangup (new setup) as :=
  preserves_counted.throughout_iff (fun _ hs => hs.2)
    (fun _ _ _ hs hstep hs' => noForeignHangup_of_countsExactly hs.2 hstep hs')
    ⟨owned_new setup, countsExactly_new setup⟩

/-- A hang-up on standard input leaves a worker without connections with a counter of `-1`. -/
theorem not_countsExactly_stdin_hangup :
    ¬ Throughout next CountsExactly (new Setup.oneWorker)
      [.run (some 0) (accepting .again), .wait (some 0) [⟨0, ⟨false, true, false, false⟩⟩],
        .run (some 0) (accepting .again)] := by
  decide

end Server

end ClientServer.Mync
