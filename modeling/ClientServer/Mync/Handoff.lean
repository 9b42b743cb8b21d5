import ClientServer.Library.Runs
import ClientServer.Mync.Epoll

/-!
# The handoff of a connection to a worker

Any number of calls of `push_external_socket` on one worker, each with a connection of its own,
and the wakeup branch of the worker's `exec`, one step at a time: the calls enter the mutex, put
their connection into the queue, leave the mutex and write to the eventfd; the handler reads the
eventfd, which sets its counter to zero, enters the mutex, takes the queue over one entry a turn,
and leaves.

A queue with entries is always somebody's concern: the eventfd is readable, or a call that has
put its entry has not written yet, or the handler that read the eventfd has not finished its
drain.  Every entry is in the queue or in `clients`, once.
-/

namespace ClientServer.Mync

open Std (ExtTreeMap)

/-! ## The steps -/

/-- The connections pushed, one for each call; their descriptors are all different. -/
structure Pushes (ι : Type*) where
  fd : ι → Fd
  st : ι → Stats
  distinct : Function.Injective fd

/-- How far a call of `push_external_socket` has come. -/
inductive PushPc
  | outside
  /-- The mutex is held. -/
  | locked
  /-- The mutex is held and the connection is in the queue. -/
  | queued
  /-- The mutex is free again, the eventfd not yet written. -/
  | writing
  | done
  deriving DecidableEq, Repr

/-- How far the wakeup branch of the worker has come. -/
inductive WakeupPc
  | outside
  /-- The eventfd is read. -/
  | woken
  /-- In the drain loop, with the mutex held. -/
  | draining
  deriving DecidableEq, Repr

/-- The connection is in the queue or has been there. -/
def PushPc.pushed : PushPc → Bool
  | .queued => true
  | .writing => true
  | .done => true
  | _ => false

/-- The call holds the mutex. -/
def PushPc.locks : PushPc → Bool
  | .locked => true
  | .queued => true
  | _ => false

/-- The call is inside of `push_external_socket`. -/
def PushPc.inside : PushPc → Bool
  | .locked => true
  | .queued => true
  | .writing => true
  | _ => false

/-- The worker's object, the calls, the handler, and what they share. -/
structure Handoff (ι : Type*) where
  epoll : Epoll
  calls : ι → PushPc
  handler : WakeupPc
  /-- The counter of the eventfd. -/
  counter : ℕ
  /-- `mtx_pending_new_socks_` is held. -/
  locked : Bool

/-- What can happen next. -/
inductive HandoffAct (ι : Type*)
  | lock (i : ι)
  | enqueue (i : ι)
  | unlock (i : ι)
  | write (i : ι)
  | readEventfd
  | lockDrain
  | drainOne
  | unlockDrain

/-- A worker before any push: its queue is empty and it has none of the connections. -/
structure HandoffSetup (ι : Type*) extends Pushes ι where
  epoll : Epoll
  queue : epoll.pendingNewSocks = []
  absent : ∀ i, fd i ∉ epoll.clients

/-- One connection for a new worker. -/
def HandoffSetup.one : HandoffSetup Unit where
  fd := fun _ => 10
  st := fun _ => Stats.accepted "" 0
  distinct := fun _ _ _ => rfl
  epoll := Epoll.new (-1) false false 7 8 9
  queue := rfl
  absent := fun _ => ExtTreeMap.not_mem_empty

namespace Handoff

variable {ι : Type*}

/-- The start: no call has begun and the eventfd is zero. -/
def new (setup : HandoffSetup ι) : Handoff ι where
  epoll := setup.epoll
  calls := fun _ => .outside
  handler := .outside
  counter := 0
  locked := false

/-- Call `i` is at `pc`. -/
def goto [DecidableEq ι] (h : Handoff ι) (i : ι) (pc : PushPc) : Handoff ι :=
  { h with calls := Function.update h.calls i pc }

/-- One step; none where it cannot be taken. -/
def next [DecidableEq ι] (p : Pushes ι) (h : Handoff ι) : HandoffAct ι → Option (Handoff ι)
  | .lock i =>
    if h.calls i = .outside ∧ ¬ h.locked then some { h.goto i .locked with locked := true }
    else none
  | .enqueue i =>
    if h.calls i = .locked then
      some { h.goto i .queued with epoll := h.epoll.pushExternalSocket (p.fd i) (p.st i) }
    else none
  | .unlock i =>
    if h.calls i = .queued then some { h.goto i .writing with locked := false } else none
  | .write i =>
    if h.calls i = .writing then some { h.goto i .done with counter := h.counter + 1 } else none
  | .readEventfd =>
    if h.handler = .outside then some { h with handler := .woken, counter := 0 } else none
  | .lockDrain =>
    if h.handler = .woken ∧ ¬ h.locked then some { h with handler := .draining, locked := true }
    else none
  | .drainOne =>
    match h.handler, h.epoll.pendingNewSocks with
    | .draining, (fd, st) :: rest => some { h with epoll := (h.epoll.drainOne fd st rest).1 }
    | _, _ => none
  | .unlockDrain =>
    if h.handler = .draining ∧ h.epoll.pendingNewSocks = [] then
      some { h with handler := .outside, locked := false }
    else none

/-! ## The properties -/

/-- Nobody is inside of `push_external_socket` or of the drain. -/
def Idle (h : Handoff ι) : Prop := (∀ i, (h.calls i).inside = false) ∧ h.handler ≠ .draining

/-- Call `i` has left its connection in the queue: once, and not in `clients`. -/
def InQueue (p : Pushes ι) (h : Handoff ι) (i : ι) : Prop :=
  (p.fd i, p.st i) ∈ h.epoll.pendingNewSocks ∧
    (h.epoll.pendingNewSocks.map (·.1)).count (p.fd i) = 1 ∧ p.fd i ∉ h.epoll.clients

/-- The connection of call `i` is in `clients` with its `Stats`, and not in the queue. -/
def InClients (p : Pushes ι) (h : Handoff ι) (i : ι) : Prop :=
  h.epoll.clients[p.fd i]? = some (p.st i) ∧ p.fd i ∉ h.epoll.pendingNewSocks.map (·.1)

/-- Every connection pushed is in one place, once, with its `Stats`. -/
def Placed (p : Pushes ι) (h : Handoff ι) : Prop :=
  ∀ i, (h.calls i).pushed = true → (h.InQueue p i ∨ h.InClients p i)

/-- While nobody is at work on a queue with entries, the eventfd is readable. -/
def Signalled (h : Handoff ι) : Prop :=
  h.epoll.pendingNewSocks ≠ [] → h.Idle → 0 < h.counter

/-- No connection is stuck or lost: while nobody is at work on a queue with entries, the eventfd
is readable or the handler has just read it and goes on to the drain; and every connection pushed
is in its place. -/
def HandedOver (p : Pushes ι) (h : Handoff ι) : Prop :=
  (h.epoll.pendingNewSocks ≠ [] → h.Idle → 0 < h.counter ∨ h.handler = .woken) ∧ h.Placed p

/-- The queue has entries of calls that were made, once each and outside of `clients`; a call
that was made has its connection in the queue or in `clients`; a queue with entries is somebody's
concern. -/
structure Kept (p : Pushes ι) (h : Handoff ι) : Prop where
  nodup : (h.epoll.pendingNewSocks.map (·.1)).Nodup
  apart : ∀ fd ∈ h.epoll.pendingNewSocks.map (·.1), fd ∉ h.epoll.clients
  pushed : ∀ i, (h.calls i).pushed = true →
    (p.fd i, p.st i) ∈ h.epoll.pendingNewSocks ∨ h.epoll.clients[p.fd i]? = some (p.st i)
  unpushed : ∀ i, (h.calls i).pushed = false →
    p.fd i ∉ h.epoll.pendingNewSocks.map (·.1) ∧ p.fd i ∉ h.epoll.clients
  concern : h.epoll.pendingNewSocks ≠ [] →
    0 < h.counter ∨ (∃ i, (h.calls i).inside = true ∧ (h.calls i).pushed = true) ∨
      h.handler ≠ .outside

variable {p : Pushes ι} {h h' : Handoff ι}

lemma Kept.placed (hk : h.Kept p) : h.Placed p := by
  intro i hi
  rcases hk.pushed i hi with hqueue | hclient
  · have hfd : p.fd i ∈ h.epoll.pendingNewSocks.map (·.1) := List.mem_map_of_mem hqueue
    exact Or.inl ⟨hqueue, List.count_eq_one_of_mem hk.nodup hfd, hk.apart _ hfd⟩
  · refine Or.inr ⟨hclient, fun hfd => hk.apart _ hfd ?_⟩
    exact ExtTreeMap.mem_iff_isSome_getElem?.mpr (by simp [hclient])

lemma Kept.handedOver (hk : h.Kept p) : h.HandedOver p := by
  refine ⟨fun hqueue hidle => ?_, hk.placed⟩
  rcases hk.concern hqueue with hcounter | ⟨i, hinside, -⟩ | hhandler
  · exact Or.inl hcounter
  · rw [hidle.1 i] at hinside
    cases hinside
  · refine Or.inr ?_
    cases hpc : h.handler with
    | outside => exact absurd hpc hhandler
    | woken => rfl
    | draining => exact absurd hpc hidle.2

lemma kept_new (setup : HandoffSetup ι) : (new setup).Kept setup.toPushes := by
  have hqueue : (new setup).epoll.pendingNewSocks = [] := setup.queue
  refine ⟨?_, ?_, fun i hi => ?_, fun i _ => ⟨?_, setup.absent i⟩, fun hne => absurd hqueue hne⟩
  · rw [hqueue]
    exact List.nodup_nil
  · rw [hqueue]
    exact fun fd hfd => absurd hfd List.not_mem_nil
  · cases hi
  · rw [hqueue]
    exact List.not_mem_nil

/-! ## One step -/

/-- A step that leaves the queue and the map as they are. -/
lemma Kept.of_epoll_eq (hk : h.Kept p) (hepoll : h'.epoll = h.epoll)
    (hcalls : ∀ i, (h'.calls i).pushed = (h.calls i).pushed)
    (hconcern : h.epoll.pendingNewSocks ≠ [] →
      0 < h'.counter ∨ (∃ i, (h'.calls i).inside = true ∧ (h'.calls i).pushed = true) ∨
        h'.handler ≠ .outside) : h'.Kept p := by
  refine ⟨?_, ?_, fun i hi => ?_, fun i hi => ?_, ?_⟩ <;> rw [hepoll]
  · exact hk.nodup
  · exact hk.apart
  · exact hk.pushed i (hcalls i ▸ hi)
  · exact hk.unpushed i (hcalls i ▸ hi)
  · exact hconcern

/-- A turn of the drain moves the first connection of the queue into `clients`. -/
lemma Kept.drainOne (hk : h.Kept p) {fd : Fd} {st : Stats} {rest : List (Fd × Stats)}
    (hqueue : h.epoll.pendingNewSocks = (fd, st) :: rest) (hhandler : h.handler = .draining) :
    ({ h with epoll := (h.epoll.drainOne fd st rest).1 } : Handoff ι).Kept p := by
  have hnodup := hk.nodup
  rw [hqueue, List.map_cons, List.nodup_cons] at hnodup
  have hfd : fd ∉ h.epoll.clients := hk.apart fd (by rw [hqueue]; exact List.mem_cons_self ..)
  have hmem (fd' : Fd) :
      fd' ∈ h.epoll.clients.insertIfNew fd st ↔ fd = fd' ∨ fd' ∈ h.epoll.clients := by
    rw [ExtTreeMap.mem_insertIfNew, Std.LawfulEqCmp.compare_eq_iff_eq]
  refine ⟨hnodup.2, fun fd' hfd' hclient => ?_, fun i hi => ?_, fun i hi => ?_, fun _ => ?_⟩
  · rcases (hmem fd').mp hclient with rfl | hclient
    · exact hnodup.1 hfd'
    · refine hk.apart fd' ?_ hclient
      rw [hqueue]
      exact List.mem_cons_of_mem _ hfd'
  · show _ ∈ rest ∨ (h.epoll.clients.insertIfNew fd st)[p.fd i]? = _
    rw [ExtTreeMap.getElem?_insertIfNew]
    rcases hk.pushed i hi with hin | hclient
    · rw [hqueue] at hin
      rcases List.mem_cons.mp hin with heq | hin
      · cases heq
        exact Or.inr (if_pos ⟨Std.ReflCmp.compare_self, hfd⟩)
      · exact Or.inl hin
    · have hne : p.fd i ≠ fd := by
        rintro heq
        rw [← heq] at hfd
        exact hfd (ExtTreeMap.mem_iff_isSome_getElem?.mpr (by simp [hclient]))
      refine Or.inr ?_
      rw [if_neg fun hcmp => hne (Std.LawfulEqCmp.eq_of_compare hcmp.1).symm]
      exact hclient
  · obtain ⟨hout, hclient⟩ := hk.unpushed i hi
    rw [hqueue, List.map_cons, List.mem_cons, not_or] at hout
    exact ⟨hout.2, fun hnew => ((hmem _).mp hnew).elim (fun heq => hout.1 heq.symm) hclient⟩
  · refine Or.inr (Or.inr ?_)
    rw [hhandler]
    simp

section Step

variable [DecidableEq ι]

lemma calls_goto (h : Handoff ι) (i j : ι) (pc : PushPc) :
    (h.goto i pc).calls j = if j = i then pc else h.calls j := Function.update_apply ..

/-- A call puts its connection into the queue. -/
lemma Kept.enqueue (hk : h.Kept p) {i : ι} (hi : h.calls i = .locked) :
    ({ h.goto i .queued with epoll := h.epoll.pushExternalSocket (p.fd i) (p.st i) } :
      Handoff ι).Kept p := by
  obtain ⟨hout, hclient⟩ := hk.unpushed i (by rw [hi]; rfl)
  have hmap : ((h.epoll.pushExternalSocket (p.fd i) (p.st i)).pendingNewSocks.map (·.1)) =
      h.epoll.pendingNewSocks.map (·.1) ++ [p.fd i] := List.map_append
  refine ⟨?_, ?_, fun j hj => ?_, fun j hj => ?_, fun _ => ?_⟩
  · rw [hmap, List.nodup_append]
    refine ⟨hk.nodup, List.nodup_singleton _, fun fd hfd fd' hfd' heq => ?_⟩
    rw [List.mem_singleton] at hfd'
    exact hout (hfd' ▸ heq ▸ hfd)
  · rw [hmap]
    intro fd hfd
    rcases List.mem_append.mp hfd with hfd | hfd
    · exact hk.apart fd hfd
    · rw [List.mem_singleton.mp hfd]
      exact hclient
  · show _ ∈ h.epoll.pendingNewSocks ++ [(p.fd i, p.st i)] ∨ h.epoll.clients[p.fd j]? = _
    by_cases hji : j = i
    · subst hji
      exact Or.inl (List.mem_append_right _ (List.mem_singleton_self _))
    · rw [calls_goto, if_neg hji] at hj
      exact (hk.pushed j hj).imp_left (List.mem_append_left _)
  · rw [hmap]
    rw [calls_goto] at hj
    split_ifs at hj with hji
    · cases hj
    · obtain ⟨hout', hclient'⟩ := hk.unpushed j hj
      refine ⟨fun hfd => ?_, hclient'⟩
      rcases List.mem_append.mp hfd with hfd | hfd
      · exact hout' hfd
      · exact hji (p.distinct (List.mem_singleton.mp hfd))
  · refine Or.inr (Or.inl ⟨i, ?_⟩)
    rw [calls_goto, if_pos rfl]
    exact ⟨rfl, rfl⟩

/-- A call moves without touching the queue; what it was concerned with, it still is. -/
lemma Kept.goto (hk : h.Kept p) {i : ι} {pc : PushPc} (hpushed : pc.pushed = (h.calls i).pushed)
    (hinside : (h.calls i).pushed = true → (h.calls i).inside = true → pc.inside = true)
    (locked : Bool) : ({ h.goto i pc with locked := locked } : Handoff ι).Kept p := by
  have hcalls (j : ι) : ((h.goto i pc).calls j).pushed = (h.calls j).pushed := by
    rw [calls_goto]
    split_ifs with hji
    · rw [hpushed, hji]
    · rfl
  refine hk.of_epoll_eq rfl hcalls fun hqueue => ?_
  refine (hk.concern hqueue).imp_right (Or.imp_left ?_)
  rintro ⟨j, hin, hpush⟩
  refine ⟨j, ?_, (hcalls j).trans hpush⟩
  show ((h.goto i pc).calls j).inside = true
  rw [calls_goto]
  split_ifs with hji
  · subst hji
    exact hinside hpush hin
  · exact hin

/-- Every step keeps the connections and the concern. -/
lemma preserves_kept : Preserves (next p) (fun _ _ => True) (Kept p) := by
  intro h a h' hk _ hstep
  cases a with
  | lock i =>
    simp only [next] at hstep
    split_ifs at hstep with hi
    cases hstep
    exact hk.goto (by rw [hi.1]; rfl) (by rw [hi.1]; exact fun hpushed => by cases hpushed) true
  | enqueue i =>
    simp only [next] at hstep
    split_ifs at hstep with hi
    cases hstep
    exact hk.enqueue hi
  | unlock i =>
    simp only [next] at hstep
    split_ifs at hstep with hi
    cases hstep
    exact hk.goto (by rw [hi]; rfl) (fun _ _ => rfl) false
  | write i =>
    simp only [next] at hstep
    split_ifs at hstep with hi
    cases hstep
    refine hk.of_epoll_eq rfl (fun j => ?_) fun _ => Or.inl (Nat.succ_pos _)
    show ((h.goto i .done).calls j).pushed = _
    rw [calls_goto]
    split_ifs with hji
    · rw [hji, hi]
      rfl
    · rfl
  | readEventfd =>
    simp only [next] at hstep
    split_ifs at hstep
    cases hstep
    exact hk.of_epoll_eq rfl (fun _ => rfl) fun _ => Or.inr (Or.inr (by simp))
  | lockDrain =>
    simp only [next] at hstep
    split_ifs at hstep
    cases hstep
    exact hk.of_epoll_eq rfl (fun _ => rfl) fun _ => Or.inr (Or.inr (by simp))
  | drainOne =>
    simp only [next] at hstep
    split at hstep
    · rename_i fd st rest hhandler hqueue
      cases hstep
      exact hk.drainOne hqueue hhandler
    · cases hstep
  | unlockDrain =>
    simp only [next] at hstep
    split_ifs at hstep with hdrained
    cases hstep
    exact hk.of_epoll_eq rfl (fun _ => rfl) fun hqueue => absurd hdrained.2 hqueue

/-- **No connection is stuck or lost between the acceptor and a worker.**  Any calls, any number
of them, in every interleaving with the worker's wakeups. -/
theorem handedOver_throughout (setup : HandoffSetup ι) (as : List (HandoffAct ι)) :
    Throughout (next setup.toPushes) (HandedOver setup.toPushes) (new setup) as :=
  preserves_kept.throughout (fun _ hk => hk.handedOver) (kept_new setup)
    (along_of_forall (fun _ _ => trivial) _ as)

end Step

/-- The handler has read the eventfd and not begun its drain: the connection is in the queue, and
the eventfd is not readable. -/
theorem not_signalled_between_read_and_drain :
    ¬ Throughout (next HandoffSetup.one.toPushes)
        (fun h => h.Signalled ∧ h.Placed HandoffSetup.one.toPushes) (new HandoffSetup.one)
      [.lock (), .enqueue (), .unlock (), .write (), .readEventfd] := by
  intro h
  obtain ⟨-, h⟩ := h
  obtain ⟨-, h⟩ := h _ rfl
  obtain ⟨-, h⟩ := h _ rfl
  obtain ⟨-, h⟩ := h _ rfl
  obtain ⟨-, h⟩ := h _ rfl
  obtain ⟨hsignalled, -⟩ := h _ rfl
  have hcounter := hsignalled (List.cons_ne_nil _ _) ⟨fun _ => rfl, by decide⟩
  exact absurd hcounter (Nat.lt_irrefl 0)

end Handoff

end ClientServer.Mync
