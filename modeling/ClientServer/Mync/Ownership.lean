import ClientServer.Library.Holding
import ClientServer.Mync.Server

/-!
# Who owns a descriptor

Every thread of the server holds descriptors: those its object was built with, the keys of its
`clients`, its pending queue, and the connection it has just accepted.  The invariant is that no
descriptor is held twice and that what is held is open, so that the kernel gives nobody a number
that somebody still holds.

It is kept by every step but one: the hang-up branch of `exec` calls `remove_client` on any
descriptor but `sockfd`, also on the shared standard input, the timer and the eventfd.
-/

namespace ClientServer.Mync

open Std (ExtTreeMap)

/-! ## Keys of a map as a multiset -/

section Keys

variable {m : ExtTreeMap Fd Stats} {fd : Fd}

lemma coe_keys_le (X : Multiset Fd) (h : ∀ fd ∈ m, fd ∈ X) : (m.keys : Multiset Fd) ≤ X :=
  (Multiset.le_iff_subset (Multiset.coe_nodup.mpr m.nodup_keys)).mpr fun fd hfd =>
    h fd (ExtTreeMap.mem_keys.mp (Multiset.mem_coe.mp hfd))

lemma coe_keys_insertIfNew_le (st : Stats) :
    ((m.insertIfNew fd st).keys : Multiset Fd) ≤ fd ::ₘ (m.keys : Multiset Fd) := by
  refine coe_keys_le _ fun fd' hfd' => ?_
  rw [Multiset.mem_cons, Multiset.mem_coe, ExtTreeMap.mem_keys]
  rcases ExtTreeMap.mem_insertIfNew.mp hfd' with hnew | hold
  · exact Or.inl (Std.LawfulEqCmp.eq_of_compare hnew).symm
  · exact Or.inr hold

lemma cons_coe_keys_erase_le (h : fd ∈ m) :
    fd ::ₘ ((m.erase fd).keys : Multiset Fd) ≤ (m.keys : Multiset Fd) := by
  have hnot : fd ∉ ((m.erase fd).keys : Multiset Fd) := by
    rw [Multiset.mem_coe, ExtTreeMap.mem_keys, ExtTreeMap.mem_erase]
    simp
  have hnodup : (fd ::ₘ ((m.erase fd).keys : Multiset Fd)).Nodup :=
    Multiset.nodup_cons.mpr ⟨hnot, Multiset.coe_nodup.mpr (m.erase fd).nodup_keys⟩
  refine (Multiset.le_iff_subset hnodup).mpr fun fd' hfd' => ?_
  rw [Multiset.mem_coe, ExtTreeMap.mem_keys]
  rcases Multiset.mem_cons.mp hfd' with rfl | hfd'
  · exact h
  · rw [Multiset.mem_coe, ExtTreeMap.mem_keys] at hfd'
    exact ExtTreeMap.mem_of_mem_erase hfd'

lemma coe_keys_alter_le (h : fd ∈ m) (f : Option Stats → Option Stats) :
    ((m.alter fd f).keys : Multiset Fd) ≤ (m.keys : Multiset Fd) := by
  refine coe_keys_le _ fun fd' hfd' => ?_
  rw [Multiset.mem_coe, ExtTreeMap.mem_keys]
  rw [ExtTreeMap.mem_alter] at hfd'
  split_ifs at hfd' with heq
  · exact Std.LawfulEqCmp.eq_of_compare heq ▸ h
  · exact hfd'

lemma coe_keys_map_le (f : Fd → Stats → Stats) :
    ((m.map f).keys : Multiset Fd) ≤ (m.keys : Multiset Fd) :=
  coe_keys_le _ fun _ hfd => Multiset.mem_coe.mpr
    (ExtTreeMap.mem_keys.mpr (ExtTreeMap.mem_map.mp hfd))

end Keys

/-! ## Holdings -/

/-- A field that may hold a descriptor. -/
def slot (fd : Fd) : Multiset Fd := if 0 ≤ fd then {fd} else 0

lemma slot_released (fd : Fd) : slot (Epoll.released fd) = 0 := by
  unfold slot Epoll.released
  by_cases h : 0 ≤ fd
  · rw [if_pos h]
    rfl
  · rw [if_neg h, if_neg h]

lemma coe_closes_closeOwn (fd : Fd) : (closes (Epoll.closeOwn fd) : Multiset Fd) = slot fd := by
  unfold slot Epoll.closeOwn
  split_ifs <;> rfl

/-- The descriptors the object was built with, without the shared standard input. -/
def Epoll.ownFds (e : Epoll) : Multiset Fd :=
  slot e.sockfd + slot e.epfd + slot e.timerfd + slot e.wakeupFd

/-- What an object holds: its own descriptors, its clients and its queue. -/
def Epoll.held (e : Epoll) : Multiset Fd :=
  e.ownFds + (e.clients.keys : Multiset Fd) + (e.pendingNewSocks.map (·.1) : Multiset Fd)

/-- The connection a thread has accepted and not yet passed on. -/
def Pc.hand {n : ℕ} : Pc n → Multiset Fd
  | .adopting fd _ _ => {fd}
  | .choosing fd _ _ _ _ => {fd}
  | .pushing fd _ _ _ => {fd}
  | _ => 0

/-- What a thread holds. -/
def Thread.held {n : ℕ} (t : Thread n) : Multiset Fd := t.epoll.held + t.pc.hand

/-! ## One thread -/

section Thread

variable {n : ℕ}

lemma coe_closes_of_harmless {calls : List Call} (h : Epoll.Harmless calls) :
    (closes calls : Multiset Fd) = 0 := by
  rw [Multiset.coe_eq_zero, List.eq_nil_iff_forall_not_mem]
  exact fun fd hfd => (h fd).1 (mem_closes.mp hfd)

namespace Epoll

variable {e e' : Epoll} {fd : Fd} {st : Stats}

/-- An object that differs in `clients` only, where keys are dropped. -/
lemma held_le_of_keys (hown : e'.ownFds = e.ownFds)
    (hqueue : e'.pendingNewSocks = e.pendingNewSocks)
    (hkeys : (e'.clients.keys : Multiset Fd) ≤ (e.clients.keys : Multiset Fd)) :
    e'.held ≤ e.held := by
  unfold held
  rw [hown, hqueue]
  gcongr

lemma held_removeClient_le (h : fd ∈ e.clients) :
    (e.removeClient fd).1.held + (closes (e.removeClient fd).2 : Multiset Fd) ≤ e.held := by
  have hkeys := cons_coe_keys_erase_le h
  calc (e.removeClient fd).1.held + (closes (e.removeClient fd).2 : Multiset Fd)
      = e.ownFds + ((e.clients.erase fd).keys : Multiset Fd) +
          (e.pendingNewSocks.map (·.1) : Multiset Fd) + {fd} := rfl
    _ = e.ownFds + (fd ::ₘ ((e.clients.erase fd).keys : Multiset Fd)) +
          (e.pendingNewSocks.map (·.1) : Multiset Fd) := by
        rw [← Multiset.singleton_add]
        abel
    _ ≤ e.held := by
        unfold held
        gcongr

lemma held_drainOne_le {queue : List (Fd × Stats)}
    (hqueue : e.pendingNewSocks = (fd, st) :: queue) :
    (e.drainOne fd st queue).1.held ≤ e.held := by
  have hkeys : ((e.clients.insertIfNew fd st).keys : Multiset Fd) ≤
      fd ::ₘ (e.clients.keys : Multiset Fd) := coe_keys_insertIfNew_le st
  calc (e.drainOne fd st queue).1.held
      = e.ownFds + ((e.clients.insertIfNew fd st).keys : Multiset Fd) +
          (queue.map (·.1) : Multiset Fd) := rfl
    _ ≤ e.ownFds + (fd ::ₘ (e.clients.keys : Multiset Fd)) + (queue.map (·.1) : Multiset Fd) := by
        gcongr
    _ = e.held := by
        unfold held
        rw [hqueue, List.map_cons, ← Multiset.cons_coe, ← Multiset.singleton_add,
          ← Multiset.singleton_add]
        abel

/-- The accepted socket is taken over or closed. -/
lemma held_adopt_le (added : Bool) :
    (e.adopt fd st added).1.held + (closes (e.adopt fd st added).2 : Multiset Fd) ≤
      e.held + {fd} := by
  cases added with
  | false => exact le_of_eq rfl
  | true =>
    have hkeys : ((e.clients.insertIfNew fd st).keys : Multiset Fd) ≤
        fd ::ₘ (e.clients.keys : Multiset Fd) := coe_keys_insertIfNew_le st
    calc (e.adopt fd st true).1.held + (closes (e.adopt fd st true).2 : Multiset Fd)
        = e.ownFds + ((e.clients.insertIfNew fd st).keys : Multiset Fd) +
            (e.pendingNewSocks.map (·.1) : Multiset Fd) + 0 := rfl
      _ ≤ e.ownFds + (fd ::ₘ (e.clients.keys : Multiset Fd)) +
            (e.pendingNewSocks.map (·.1) : Multiset Fd) := by
          rw [add_zero]
          gcongr
      _ = e.held + {fd} := by
          unfold held
          rw [← Multiset.singleton_add]
          abel

/-- A part of `fullstop` that closes what one field of the object holds. -/
lemma held_le_of_closeOwn {calls : List Call} (hclients : e'.clients = e.clients)
    (hqueue : e'.pendingNewSocks = e.pendingNewSocks)
    (hown : e'.ownFds + (closes calls : Multiset Fd) = e.ownFds) :
    e'.held + (closes calls : Multiset Fd) ≤ e.held := by
  unfold held
  rw [hclients, hqueue, ← hown]
  exact Eq.le (by abel)

lemma held_stopSocket_le (e : Epoll) :
    e.stopSocket.1.held + (closes e.stopSocket.2 : Multiset Fd) ≤ e.held := by
  refine held_le_of_closeOwn rfl rfl ?_
  simp only [ownFds, stopSocket, slot_released, coe_closes_closeOwn]
  abel

lemma held_stopEpfd_le (e : Epoll) :
    e.stopEpfd.1.held + (closes e.stopEpfd.2 : Multiset Fd) ≤ e.held := by
  refine held_le_of_closeOwn rfl rfl ?_
  simp only [ownFds, stopEpfd, slot_released, coe_closes_closeOwn]
  abel

lemma held_stopTimer_le (e : Epoll) :
    e.stopTimer.1.held + (closes e.stopTimer.2 : Multiset Fd) ≤ e.held := by
  refine held_le_of_closeOwn rfl rfl ?_
  simp only [ownFds, stopTimer, slot_released, coe_closes_closeOwn]
  abel

lemma held_stopWakeup_le (e : Epoll) :
    e.stopWakeup.1.held + (closes e.stopWakeup.2 : Multiset Fd) ≤ e.held := by
  refine held_le_of_closeOwn rfl rfl ?_
  simp only [ownFds, stopWakeup, slot_released, coe_closes_closeOwn]
  abel

lemma held_stopPending_le {rest : List (Fd × Stats)}
    (hqueue : e.pendingNewSocks = (fd, st) :: rest) :
    (e.stopPending fd rest).1.held + (closes (e.stopPending fd rest).2 : Multiset Fd) ≤ e.held := by
  calc (e.stopPending fd rest).1.held + (closes (e.stopPending fd rest).2 : Multiset Fd)
      = e.ownFds + (e.clients.keys : Multiset Fd) + (rest.map (·.1) : Multiset Fd) + {fd} := rfl
    _ ≤ e.held := by
        unfold held
        rw [hqueue, List.map_cons, ← Multiset.cons_coe, ← Multiset.singleton_add]
        exact Eq.le (by abel)

/-- Handling a report drops what it closes, unless it hangs up a descriptor that is no client. -/
lemma Handled.held_le {r : Report} {a : Answers} {calls : List Call} (h : e.Handled r a e' calls)
    (hclient : e.dispatch r = .removeClient → r.fd ∈ e.clients) (hwakeup : e.dispatch r ≠ .wakeup) :
    e'.held + (closes calls : Multiset Fd) ≤ e.held := by
  cases h with
  | same hcalls =>
    rw [coe_closes_of_harmless hcalls, add_zero]
  | flags hcalls =>
    rw [coe_closes_of_harmless hcalls, add_zero]
    exact le_of_eq rfl
  | ticked hcalls =>
    rw [coe_closes_of_harmless hcalls, add_zero]
    exact held_le_of_keys rfl rfl (coe_keys_map_le _)
  | drained hd => exact absurd hd hwakeup
  | counted hcalls _ hdata =>
    rw [coe_closes_of_harmless hcalls, add_zero]
    exact held_le_of_keys rfl rfl (coe_keys_alter_le (mem_clients_of_dispatch hdata) _)
  | hungUp hremove => exact held_removeClient_le (hclient hremove)
  | emptied _ hdata => exact held_removeClient_le (mem_clients_of_dispatch hdata)

end Epoll

namespace Thread

variable {t t' : Thread n} {shouldStop : Bool} {i : Input} {calls : List Call}

/-- While `fullstop` goes through its copy of the keys, they are all still in `clients`. -/
def CopiesKeys (t : Thread n) : Prop :=
  ∀ fds, t.pc = .stopping (.clients fds) → fds.Nodup ∧ ∀ fd ∈ fds, fd ∈ t.epoll.clients

lemma Goes.hand_le {pc : Pc n} (h : t.Goes shouldStop pc) : pc.hand ≤ t.pc.hand := by
  cases h <;> (try split_ifs) <;> first | exact Multiset.zero_le _ | exact le_rfl

lemma hand_after (e : Epoll) (r : Report) (a : Answers) (rest : List Report) :
    (Pc.after e r a rest : Pc n).hand = 0 := by
  rcases Pc.after_cases e r a rest with h | ⟨-, h⟩ | ⟨-, h⟩ <;> rw [h] <;> rfl

/-- One part of `fullstop` drops what it closes. -/
lemma held_stop_le {stage : Stage} (hpc : t.pc = .stopping stage) (hkeys : t.CopiesKeys) :
    (t.stop stage).1.held + (closes (t.stop stage).2 : Multiset Fd) ≤ t.held := by
  have hheld : t.held = t.epoll.held := by
    unfold held
    rw [hpc]
    exact add_zero _
  -- none of the parts leaves the thread with a connection in hand
  have hsettle {e : Epoll} {calls : List Call}
      (h : e.held + (closes calls : Multiset Fd) ≤ t.epoll.held) :
      e.held + 0 + (closes calls : Multiset Fd) ≤ t.held := by
    rw [add_zero, hheld]
    exact h
  cases stage with
  | socket => exact hsettle (Epoll.held_stopSocket_le t.epoll)
  | clients fds =>
    cases fds with
    | nil =>
      refine hsettle (e := t.epoll.clearClients) ?_
      show t.epoll.clearClients.held + 0 ≤ _
      rw [add_zero]
      exact Epoll.held_le_of_keys rfl rfl (Multiset.zero_le _)
    | cons fd fds =>
      exact hsettle (Epoll.held_removeClient_le ((hkeys _ hpc).2 fd (List.mem_cons_self ..)))
  | queue =>
    unfold stop
    cases hqueue : t.epoll.pendingNewSocks with
    | nil => exact hsettle (Eq.le (add_zero _))
    | cons c rest => exact hsettle (Epoll.held_stopPending_le hqueue)
  | epfd => exact hsettle (Epoll.held_stopEpfd_le t.epoll)
  | timer => exact hsettle (Epoll.held_stopTimer_le t.epoll)
  | wakeup => exact hsettle (Epoll.held_stopWakeup_le t.epoll)
  | flags => exact hsettle (e := t.epoll.stopFlags) (Eq.le (add_zero _))

/-- A thread that goes on by itself drops what it closes. -/
lemma Advances.held_le (h : t.Advances shouldStop i t' calls) (hkeys : t.CopiesKeys)
    (hclient : ∀ r ∈ t.pc.report?, t.epoll.dispatch r = .removeClient → r.fd ∈ t.epoll.clients) :
    t'.held + (closes calls : Multiset Fd) ≤ t.held := by
  unfold held
  cases h with
  | goes h =>
    show t.epoll.held + _ + 0 ≤ _
    rw [add_zero]
    exact add_le_add_right h.hand_le _
  | handles hpc hwakeup h =>
    show _ + (Pc.after t.epoll _ _ _).hand + _ ≤ _
    rw [hand_after, add_zero, hpc]
    show _ ≤ t.epoll.held + 0
    rw [add_zero]
    exact h.held_le (hclient _ (by rw [hpc]; rfl)) hwakeup
  | drains hpc hqueue =>
    show _ + t.pc.hand + 0 ≤ _
    rw [add_zero]
    exact add_le_add_left (Epoll.held_drainOne_le hqueue) _
  | adopts hpc =>
    show _ + 0 + _ ≤ _
    rw [add_zero, hpc]
    exact Epoll.held_adopt_le _
  | stops hpc => exact held_stop_le hpc hkeys

lemma copiesKeys_of_ne (h : ∀ fds, t.pc ≠ .stopping (.clients fds)) : t.CopiesKeys :=
  fun fds hpc => absurd hpc (h fds)

lemma Goes.copiesKeys {pc : Pc n} (h : t.Goes shouldStop pc) (hkeys : t.CopiesKeys) :
    ({ t with pc := pc } : Thread n).CopiesKeys := by
  cases h with
  | stays => exact hkeys
  | counts | prints =>
    refine copiesKeys_of_ne fun fds => ?_
    dsimp only
    split_ifs <;> simp
  | ends | loops | again | locks | unlocks | woken => exact copiesKeys_of_ne fun fds => by simp

lemma after_ne_stopping (e : Epoll) (r : Report) (a : Answers) (rest : List Report)
    (stage : Stage) : (Pc.after e r a rest : Pc n) ≠ .stopping stage := by
  rcases Pc.after_cases e r a rest with h | ⟨-, h⟩ | ⟨-, h⟩ <;> rw [h] <;> simp

lemma copiesKeys_stop {stage : Stage} (hpc : t.pc = .stopping stage) (hkeys : t.CopiesKeys) :
    (t.stop stage).1.CopiesKeys := by
  cases stage with
  | socket =>
    intro fds hfds
    cases hfds
    exact ⟨t.epoll.clients.nodup_keys, fun fd hfd => ExtTreeMap.mem_keys.mp hfd⟩
  | clients fds =>
    cases fds with
    | nil => exact copiesKeys_of_ne fun fds => by simp [stop]
    | cons fd fds =>
      intro fds' hfds'
      cases hfds'
      obtain ⟨hnodup, hmem⟩ := hkeys _ hpc
      rw [List.nodup_cons] at hnodup
      refine ⟨hnodup.2, fun fd' hfd' => ?_⟩
      show fd' ∈ t.epoll.clients.erase fd
      rw [ExtTreeMap.mem_erase]
      have hne : fd ≠ fd' := fun h => hnodup.1 (h ▸ hfd')
      exact ⟨by simpa using hne, hmem fd' (List.mem_cons_of_mem fd hfd')⟩
  | queue =>
    unfold stop
    cases t.epoll.pendingNewSocks with
    | nil => exact copiesKeys_of_ne fun fds => by simp
    | cons c rest => exact copiesKeys_of_ne fun fds => by simp
  | epfd | timer | wakeup | flags => exact copiesKeys_of_ne fun fds => by simp [stop]

lemma Advances.copiesKeys (h : t.Advances shouldStop i t' calls) (hkeys : t.CopiesKeys) :
    t'.CopiesKeys := by
  cases h with
  | goes h => exact h.copiesKeys hkeys
  | handles => exact copiesKeys_of_ne fun fds => after_ne_stopping _ _ _ _ _
  | drains hpc => exact copiesKeys_of_ne fun fds => by simp [hpc]
  | adopts => exact copiesKeys_of_ne fun fds => by simp
  | stops hpc => exact copiesKeys_stop hpc hkeys

end Thread

end Thread

/-! ## The process -/

/-- What the kernel hands out while the server is built: the listening socket, and an epoll
instance, an eventfd and a timer for each object. -/
structure Descriptors (n : ℕ) where
  sock : Fd
  epfd : Agent n → Fd
  wakeup : Agent n → Fd
  timer : Agent n → Fd

/-- The objects at the start of their threads. -/
def Descriptors.epoll {n : ℕ} (d : Descriptors n) : Agent n → Epoll
  | none => Epoll.new d.sock true true (d.epfd none) (d.wakeup none) (d.timer none)
  | some w => Epoll.new (-1) false false (d.epfd w) (d.wakeup w) (d.timer w)

/-- Descriptors as the kernel hands them out: all different, and open. -/
structure Setup (n : ℕ) extends Descriptors n where
  opened : Finset Fd
  exclusive : Exclusive (fun t => (toDescriptors.epoll t).held) opened

/-- A process with one worker that has the descriptors up to 9 open. -/
def Setup.oneWorker : Setup 1 where
  sock := 3
  epfd := fun t => if t = none then 4 else 7
  wakeup := fun t => if t = none then 5 else 8
  timer := fun t => if t = none then 6 else 9
  opened := {0, 1, 2, 3, 4, 5, 6, 7, 8, 9}
  exclusive := ⟨by decide, by decide⟩

namespace Server

variable {n : ℕ}

/-- The process when all threads are at the start of `exec`. -/
def new (setup : Setup n) : Server n where
  threads := fun t => ⟨setup.epoll t, .loopHead⟩
  opened := setup.opened
  shouldStop := false
  aborted := false
  accepted := 0

/-- No hang-up or error report is handled for a descriptor that is neither the thread's `sockfd`
nor one of its clients: standard input, its eventfd or its timer. -/
def NoForeignHangup (s : Server n) : ServerAct n → Prop
  | .run t _ => ∀ r ∈ (s.threads t).pc.report?,
      (s.threads t).epoll.dispatch r = .removeClient → r.fd ∈ (s.threads t).epoll.clients
  | _ => True

instance (s : Server n) : DecidablePred s.NoForeignHangup := fun
  | .run t _ => inferInstanceAs (Decidable (∀ r ∈ (s.threads t).pc.report?,
      (s.threads t).epoll.dispatch r = .removeClient → r.fd ∈ (s.threads t).epoll.clients))
  | .signal | .wait _ _ => inferInstanceAs (Decidable True)

/-- Every `close` of the step is on a descriptor that is open, that the thread which executes it
holds, and that no other thread holds. -/
def ClosesOwned (s : Server n) (a : ServerAct n) : Prop :=
  ∀ s' calls, s.outcome a = some (s', calls) → ∀ fd, .close fd ∈ calls →
    ∃ t i, a = .run t i ∧ fd ∈ (s.threads t).held ∧ fd ∈ s.opened ∧
      ∀ t' ≠ t, fd ∉ (s.threads t').held

/-- No descriptor has two owners, and `fullstop` goes through keys that are still there. -/
structure Owned (s : Server n) : Prop where
  exclusive : Exclusive (fun t => (s.threads t).held) s.opened
  copies : ∀ t, (s.threads t).CopiesKeys

lemma owned_new (setup : Setup n) : (new setup).Owned where
  exclusive := by
    have hheld (t : Agent n) : ((new setup).threads t).held = (setup.epoll t).held := add_zero _
    simp only [hheld]
    exact setup.exclusive
  copies := fun t => Thread.copiesKeys_of_ne fun fds => by simp [new]

/-! ## One step -/

section Step

variable {s s' : Server n} {t : Agent n}

lemma held_update (threads : Agent n → Thread n) (t : Agent n) (t' : Thread n) :
    (fun a => (Function.update threads t t' a).held) =
      Function.update (fun a => (threads a).held) t t'.held := by
  funext a
  by_cases ha : a = t
  · subst ha
    rw [Function.update_self, Function.update_self]
  · rw [Function.update_of_ne ha, Function.update_of_ne ha]

lemma copies_update (h : s.Owned) {t' : Thread n} (ht' : t'.CopiesKeys) :
    ∀ a, (Function.update s.threads t t' a).CopiesKeys :=
  (Function.forall_update_iff s.threads fun _ => Thread.CopiesKeys).mpr ⟨ht', fun a _ => h.copies a⟩

lemma Owned.put (h : s.Owned) {t' : Thread n} {calls : List Call}
    (hle : t'.held + (closes calls : Multiset Fd) ≤ (s.threads t).held) (ht' : t'.CopiesKeys) :
    (s.put t t' calls).Owned where
  exclusive := by
    show Exclusive (fun a => (Function.update s.threads t t' a).held) _
    rw [held_update]
    exact h.exclusive.release hle
  copies := copies_update h ht'

/-- A thread that moves on, perhaps leaving the connection in its hand to nobody. -/
lemma Owned.goto (h : s.Owned) {pc : Pc n} (hhand : pc.hand ≤ (s.threads t).pc.hand)
    (hpc : ∀ fds, pc ≠ .stopping (.clients fds)) : (s.goto t pc).Owned where
  exclusive := by
    show Exclusive (fun a => (Function.update s.threads t _ a).held) _
    rw [held_update]
    exact h.exclusive.forget (add_le_add_right hhand _)
  copies := copies_update h (Thread.copiesKeys_of_ne hpc)

/-- A connection goes from the hand of thread `t` to the queue of a worker. -/
lemma Owned.push (h : s.Owned) {fd : Fd} {st : Stats} {w : Fin n} {rest : List Report}
    (hpc : (s.threads t).pc = .pushing fd st w rest) :
    ((s.goto t (.waking w rest)).push w fd st).Owned := by
  have hmid : (s.goto t (.waking w rest)).Owned :=
    h.goto (Multiset.zero_le _) (fun fds => by simp)
  refine ⟨?_, copies_update hmid fun fds hfds => hmid.copies (some w) fds hfds⟩
  show Exclusive
    (fun a => (Function.update (s.goto t (.waking w rest)).threads (some w) _ a).held) _
  have hgive : fd ::ₘ ({ s.threads t with pc := .waking w rest } : Thread n).held ≤
      (s.threads t).held := by
    unfold Thread.held
    rw [hpc, ← Multiset.singleton_add, add_comm]
    show (s.threads t).epoll.held + 0 + {fd} ≤ (s.threads t).epoll.held + {fd}
    rw [add_zero]
  have hmove := h.exclusive.transfer (j := some w) hgive
  rw [← held_update s.threads t] at hmove
  rw [held_update]
  have htake : ({ (s.goto t (.waking w rest)).threads (some w) with
      epoll := ((s.goto t (.waking w rest)).threads (some w)).epoll.pushExternalSocket fd st } :
        Thread n).held = fd ::ₘ ((s.goto t (.waking w rest)).threads (some w)).held := by
    unfold Thread.held Epoll.held Epoll.pushExternalSocket
    rw [List.map_append, ← Multiset.coe_add, ← Multiset.singleton_add]
    show _ + _ + (_ + ({fd} : Multiset Fd)) + _ = _
    unfold Epoll.ownFds
    abel
  rw [htake]
  exact hmove

lemma hand_place {fd : Fd} {st : Stats} {rest : List Report} :
    (place fd st rest : Pc n).hand = {fd} := by
  unfold place
  split_ifs <;> rfl

/-- The kernel gives thread `t` a number that nobody holds. -/
lemma Owned.accept (h : s.Owned) {fd : Fd} {st : Stats} {rest : List Report} {accepted : ℕ}
    (hpc : (s.threads t).pc = .accepting rest) (hfree : fd ∉ s.opened) :
    ({ s.goto t (place fd st rest) with
      opened := insert fd s.opened
      accepted := accepted } : Server n).Owned where
  exclusive := by
    show Exclusive (fun a => (Function.update s.threads t _ a).held) _
    rw [held_update]
    refine h.exclusive.acquire hfree ?_
    unfold Thread.held
    rw [hpc, ← Multiset.singleton_add]
    show (s.threads t).epoll.held + (place fd st rest : Pc n).hand ≤
      {fd} + ((s.threads t).epoll.held + 0)
    rw [hand_place, add_zero, add_comm]
  copies := copies_update h (Thread.copiesKeys_of_ne fun fds => by
    unfold place
    split_ifs <;> simp)

/-- The step lemma: only a hang-up on a descriptor that is no client breaks ownership. -/
lemma Owned.steps {a : ServerAct n} {calls : List Call} (h : s.Owned) (hhang : s.NoForeignHangup a)
    (hsteps : s.Steps a s' calls) : s'.Owned := by
  cases hsteps with
  | signal => exact ⟨h.exclusive, h.copies⟩
  | abort => exact ⟨h.exclusive, h.copies⟩
  | wait => exact h.goto (Multiset.zero_le _) (fun fds => by simp)
  | accept hpc _ hfree => exact h.accept hpc hfree
  | acceptedAll hpc => exact h.goto (Multiset.zero_le _) (fun fds => by simp)
  | compare hpc hk =>
    refine h.goto ?_ (fun fds => by simp)
    rw [hpc]
    exact le_rfl
  | choose hpc hk =>
    refine h.goto ?_ (fun fds => by simp)
    rw [hpc]
    exact le_rfl
  | push hpc hlocks => exact h.push hpc
  | @destroy t =>
    have hgoto : (s.goto t (.stopping .socket)).Owned :=
      h.goto (Multiset.zero_le _) (fun fds => by simp)
    exact ⟨hgoto.exclusive, hgoto.copies⟩
  | advance hadv => exact h.put (hadv.held_le (h.copies _) hhang) (hadv.copiesKeys (h.copies _))

lemma preserves_owned : Preserves next (NoForeignHangup (n := n)) Owned := by
  intro s a s' h hhang hstep
  obtain ⟨calls, hsteps⟩ := steps_of_next hstep
  exact h.steps hhang hsteps

lemma Owned.closesOwned {a : ServerAct n} (h : s.Owned) (hhang : s.NoForeignHangup a) :
    s.ClosesOwned a := by
  intro s' calls hout fd hclose
  cases steps_of_outcome hout with
  | @advance t i t' _ hadv =>
    have hle := hadv.held_le (h.copies t) hhang
    have hheld : fd ∈ (s.threads t).held :=
      Multiset.mem_of_le hle (Multiset.mem_add.mpr (Or.inr (mem_closes.mpr hclose)))
    exact ⟨t, i, rfl, hheld, h.exclusive.mem_used (i := t) hheld,
      fun t' hne => h.exclusive.not_mem_of_ne hne hheld⟩
  | signal => cases hclose
  | abort => cases hclose
  | wait => cases hclose
  | accept => cases hclose
  | acceptedAll => cases hclose
  | compare => cases hclose
  | choose => cases hclose
  | push => cases hclose
  | destroy => cases hclose

end Step

/-! ## Every run -/

/-- **Every descriptor is closed once and by its owner in every run without a foreign hang-up.**
Any number of workers, any descriptors the kernel hands out, and any interleaving. -/
theorem closesOwned_of_noForeignHangup (setup : Setup n) (as : List (ServerAct n))
    (h : Along next NoForeignHangup (new setup) as) : Along next ClosesOwned (new setup) as :=
  preserves_owned.along (fun _ _ _ hs hhang _ => hs.closesOwned hhang) (owned_new setup) h

/-- The answers of a thread that needs none but `accept4`'s. -/
def accepting (ans : AcceptAnswer) : Input := ⟨⟨.eof, true, true, true, 0⟩, ans, true⟩

/-- A connection is accepted, pushed to the worker, taken over by it and closed at its end. -/
theorem closesOwned_of_noForeignHangup_one_connection :
    Along next ClosesOwned (new Setup.oneWorker)
      [.run none (accepting .again), .wait none [⟨3, ⟨true, false, false, false⟩⟩],
        .run none (accepting .again), .run none (accepting (.accepted 10 "" 0)),
        .run none (accepting .again), .run none (accepting .again),
        .run (some 0) (accepting .again), .wait (some 0) [⟨8, ⟨true, false, false, false⟩⟩],
        .run (some 0) (accepting .again), .run (some 0) (accepting .again),
        .run (some 0) (accepting .again), .run (some 0) (accepting .again),
        .run (some 0) (accepting .again), .wait (some 0) [⟨10, ⟨true, false, false, false⟩⟩],
        .run (some 0) (accepting .again)] :=
  closesOwned_of_noForeignHangup Setup.oneWorker _ (by decide)

/-- The worker sees a hang-up on the terminal and closes standard input, which it does not own. -/
theorem not_closesOwned_stdin_hangup :
    ¬ Along next ClosesOwned (new Setup.oneWorker)
      [.run (some 0) (accepting .again), .wait (some 0) [⟨0, ⟨false, true, false, false⟩⟩],
        .run (some 0) (accepting .again)] := by
  intro h
  obtain ⟨-, h⟩ := h _ rfl
  obtain ⟨-, h⟩ := h _ rfl
  obtain ⟨hcloses, -⟩ := h _ rfl
  obtain ⟨t, i, ht, hheld, -⟩ := hcloses _ _ rfl 0 (by decide)
  cases ht
  exact absurd hheld (by decide)

end Server

end ClientServer.Mync
