import ClientServer.Library.Runs
import ClientServer.Simpleepoll.EpollServer
import Mathlib.Data.Fintype.Basic

/-!
# Nothing is left unread

The epoll instance is edge-triggered: it reports a descriptor because something has arrived on it,
and not again because something is still there.  So whoever is told of a descriptor has to go on
until there is nothing left, and the loops of `handle_client` and `accept_connections` do, but for
one case: `accept_connections` also leaves its loop when `accept4` fails for another reason.

This module puts the kernel under the workers: the connections in the backlog, the bytes in the
receive buffers, and the edges that are still to be reported.  What is there to be read or accepted
is known to somebody throughout exactly the runs in which no `accept4` fails with a connection in
the backlog of which nobody else has been told (`nothingMissed_throughout_iff`).
-/

namespace ClientServer.Simpleepoll

/-- What the kernel has for the server. -/
structure Kernel where
  /-- The connections that wait to be accepted. -/
  backlog : ℕ
  /-- `server_fd` is to be reported. -/
  listenEdge : Bool
  /-- The bytes in the receive buffer of a descriptor. -/
  unread : ℕ → ℕ
  /-- The stream of a descriptor has ended behind these bytes. -/
  ended : ℕ → Bool
  /-- The descriptor is to be reported. -/
  edge : ℕ → Bool

namespace Kernel

/-- A `recv` would not fail with `EAGAIN`. -/
def Readable (k : Kernel) (fd : ℕ) : Prop := 0 < k.unread fd ∨ k.ended fd = true

instance (k : Kernel) : DecidablePred k.Readable := fun _ => inferInstanceAs (Decidable (_ ∨ _))

/-- The event is to be reported. -/
def Edge (k : Kernel) : Event → Prop
  | none => k.listenEdge = true
  | some e => k.edge e.fd = true

instance (k : Kernel) : DecidablePred k.Edge
  | none => inferInstanceAs (Decidable (_ = _))
  | some _ => inferInstanceAs (Decidable (_ = _))

/-- What `recv` may answer on a descriptor, and how many bytes it takes: at most
`BUFFER_SIZE - 1`. -/
def Answers (k : Kernel) (fd taken : ℕ) : RecvAnswer → Prop
  | .data => 0 < taken ∧ taken ≤ k.unread fd ∧ taken ≤ 4095
  | .ended => taken = 0 ∧ k.unread fd = 0 ∧ k.ended fd = true
  | .again => taken = 0 ∧ ¬ k.Readable fd
  | .failed => taken = 0

instance (k : Kernel) (fd taken : ℕ) : DecidablePred (k.Answers fd taken)
  | .data => inferInstanceAs (Decidable (_ ∧ _ ∧ _))
  | .ended => inferInstanceAs (Decidable (_ ∧ _ ∧ _))
  | .again => inferInstanceAs (Decidable (_ ∧ ¬ _))
  | .failed => inferInstanceAs (Decidable (_ = _))

/-- These events have been reported. -/
def report (k : Kernel) (events : List Event) : Kernel :=
  { k with
    listenEdge := k.listenEdge && decide (none ∉ events)
    edge := fun fd => k.edge fd && decide (∀ e ∈ events.reduceOption, e.fd ≠ fd) }

/-- A descriptor with these bytes, whether its stream has ended, and whether to report it. -/
def set (k : Kernel) (fd unread : ℕ) (ended edge : Bool) : Kernel :=
  { k with
    unread := Function.update k.unread fd unread
    ended := Function.update k.ended fd ended
    edge := Function.update k.edge fd edge }

end Kernel

/-- The next thing that a worker has been told of `server_fd` for is to accept. -/
def Pc.accepts : Pc → Bool
  | .accepting _ | .adding .. | .dropping .. => true
  | .dispatch events | .receiving _ events | .closing _ events => none ∈ events
  | .waiting | .stopped => false

/-- The workers and the kernel. -/
structure EdgeServer (ι : Type*) where
  server : EpollServer ι
  kernel : Kernel

/-- What happens. -/
inductive EdgeAction (ι : Type*)
  /-- A connection comes in. -/
  | connect
  /-- `n + 1` bytes come in. -/
  | arrive (fd n : ℕ)
  /-- The peer of a connection has closed. -/
  | finish (fd : ℕ)
  | stop
  | wait (i : ι) (events : List Event)
  | next (i : ι)
  | recv (i : ι) (answer : RecvAnswer) (taken : ℕ)
  | close (i : ι)
  /-- `accept4` returns a descriptor; so much has come in on it before. -/
  | accept (i : ι) (fd unread : ℕ) (ended : Bool)
  /-- `accept4` fails, with `EAGAIN` or for another reason. -/
  | acceptFails (i : ι) (again : Bool)
  | add (i : ι) (ok : Bool)
  | drop (i : ι)

namespace EdgeServer

variable {ι : Type*}

/-- No connections, and nothing to report. -/
def new : EdgeServer ι :=
  ⟨EpollServer.new, ⟨0, false, fun _ => 0, fun _ => false, fun _ => false⟩⟩

section Step

variable [DecidableEq ι]

/-- One step of the workers, after which the kernel is `k`. -/
def act (s : EdgeServer ι) (a : EpollServer.Action ι) (k : Kernel) : Option (EdgeServer ι) :=
  (s.server.step a).map (⟨·, k⟩)

/-- One step, where the kernel may answer so. -/
def step (s : EdgeServer ι) : EdgeAction ι → Option (EdgeServer ι)
  | .connect =>
    some ⟨s.server, { s.kernel with backlog := s.kernel.backlog + 1, listenEdge := true }⟩
  | .arrive fd n =>
    if s.server.table fd ≠ none ∧ s.kernel.ended fd = false then
      some ⟨s.server, s.kernel.set fd (s.kernel.unread fd + (n + 1)) false
        (s.kernel.edge fd || s.server.registered fd)⟩
    else none
  | .finish fd =>
    if s.server.table fd ≠ none then
      some ⟨s.server, s.kernel.set fd (s.kernel.unread fd) true
        (s.kernel.edge fd || s.server.registered fd)⟩
    else none
  | .stop => s.act .stop s.kernel
  | .wait i events =>
    if ∀ e ∈ events, s.kernel.Edge e then s.act (.wait i events) (s.kernel.report events) else none
  | .next i => s.act (.next i) s.kernel
  | .recv i answer taken =>
    match s.server.worker i with
    | .receiving e _ =>
      if s.server.running then
        if s.kernel.Answers e.fd taken answer then
          s.act (.recv i answer) (s.kernel.set e.fd (s.kernel.unread e.fd - taken)
            (s.kernel.ended e.fd) (s.kernel.edge e.fd))
        else none
      else s.act (.recv i answer) s.kernel
    | _ => none
  | .close i =>
    match s.server.worker i with
    | .closing e _ => s.act (.close i) (s.kernel.set e.fd 0 false false)
    | _ => none
  | .accept i fd unread ended =>
    if s.server.running ∧ 0 < s.kernel.backlog then
      s.act (.accept i (some fd))
        { s.kernel.set fd unread ended false with backlog := s.kernel.backlog - 1 }
    else none
  | .acceptFails i again =>
    if s.server.running → again → s.kernel.backlog = 0 then s.act (.accept i none) s.kernel
    else none
  | .add i ok =>
    match s.server.worker i with
    | .adding e _ =>
      if ok then
        -- what is there to be read is reported
        s.act (.add i true) (s.kernel.set e.fd (s.kernel.unread e.fd) (s.kernel.ended e.fd)
          (decide (s.kernel.Readable e.fd)))
      else s.act (.add i false) s.kernel
    | _ => none
  | .drop i =>
    match s.server.worker i with
    | .dropping e _ => s.act (.drop i) (s.kernel.set e.fd 0 false false)
    | _ => none

end Step

/-! ## Who has been told -/

/-- `server_fd` is to be reported, or a worker will call `accept4`. -/
def AcceptsSoon (s : EdgeServer ι) : Prop :=
  s.kernel.listenEdge = true ∨ ∃ i, (s.server.worker i).accepts = true

/-- The descriptor is to be reported, or a worker has an event of it left to handle. -/
def HandlesSoon (s : EdgeServer ι) (fd : ℕ) : Prop :=
  s.kernel.edge fd = true ∨ ∃ i, ∃ e ∈ (s.server.worker i).clients, e.fd = fd

/-- As long as the server runs, somebody will get to the connections in the backlog, and to what
there is to be read on a registered descriptor. -/
structure NothingMissed (s : EdgeServer ι) : Prop where
  accepts : s.server.running = true → 0 < s.kernel.backlog → s.AcceptsSoon
  reads : s.server.running = true → ∀ fd, s.server.registered fd = true →
    s.kernel.Readable fd → s.HandlesSoon fd

/-- Where `accept4` fails with a connection in the backlog, `server_fd` is to be reported or
another event of it is left. -/
def LeavesNoBacklog (s : EdgeServer ι) : EdgeAction ι → Prop
  | .acceptFails i _ => ∀ events, s.server.worker i = .accepting events →
      s.server.running = true → 0 < s.kernel.backlog →
        s.kernel.listenEdge = true ∨ none ∈ events ∨
          ∃ j, j ≠ i ∧ (s.server.worker j).accepts = true
  | _ => True

/-- Nothing is missed, and a number that is not open is not registered. -/
structure Told (s : EdgeServer ι) : Prop where
  missed : s.NothingMissed
  unregistered : ∀ fd, s.server.table fd = none → s.server.registered fd = false

variable {s s' : EdgeServer ι} {i : ι} {pc : Pc} {k : Kernel} {fd : ℕ}

lemma told_new : (new : EdgeServer ι).Told where
  missed := ⟨fun _ h => absurd h (Nat.lt_irrefl 0), fun _ _ h => Bool.noConfusion h⟩
  unregistered := fun _ _ => rfl

/-! ## One step -/

/-- What is there to be read on a descriptor that was given a new state. -/
lemma readable_set {n : ℕ} {ended edge : Bool} {fd' : ℕ} :
    (s.kernel.set fd n ended edge).Readable fd' ↔
      if fd' = fd then 0 < n ∨ ended = true else s.kernel.Readable fd' := by
  by_cases hfd : fd' = fd
  · subst hfd
    simp only [Kernel.Readable, Kernel.set, Function.update_self, if_true]
  · simp only [Kernel.Readable, Kernel.set, Function.update_of_ne hfd, if_neg hfd]

/-- Something comes in on a connection, and is reported if it is registered. -/
lemma Told.arrives (hs : s.Told) {n : ℕ} {ended : Bool} :
    Told ⟨s.server, s.kernel.set fd n ended (s.kernel.edge fd || s.server.registered fd)⟩ where
  missed := by
    refine ⟨hs.missed.accepts, fun hruns fd' hfd' hreads => ?_⟩
    by_cases hne : fd' = fd
    · subst hne
      refine .inl ?_
      show Function.update s.kernel.edge fd' _ fd' = true
      rw [Function.update_self, show s.server.registered fd' = true from hfd', Bool.or_true]
    · rw [readable_set, if_neg hne] at hreads
      rcases hs.missed.reads hruns fd' hfd' hreads with h | h
      · exact .inl ((Function.update_of_ne hne _ _).trans h)
      · exact .inr h
  unregistered := hs.unregistered

/-- Once the server is told to stop, nobody has to be told. -/
lemma Told.of_not_running {t : EpollServer ι} (hs : s.Told) (hstopped : t.running = false)
    (htable : t.table = s.server.table) (hregistered : t.registered = s.server.registered) :
    Told ⟨t, k⟩ where
  missed := by
    have hstop {p : Prop} (hruns : t.running = true) : p := by
      rw [hstopped] at hruns
      cases hruns
    exact ⟨hstop, hstop⟩
  unregistered := by
    intro fd hfd
    show t.registered fd = false
    rw [hregistered]
    exact hs.unregistered fd (htable ▸ hfd)

section Goes

variable [DecidableEq ι] {t : EpollServer ι}

/-- A worker goes on, and whoever else was to accept still is. -/
lemma AcceptsSoon.goes (h : s.AcceptsSoon)
    (hworker : t.worker = Function.update s.server.worker i pc)
    (hedge : s.kernel.listenEdge = true → AcceptsSoon ⟨t, k⟩)
    (hpc : (s.server.worker i).accepts = true → AcceptsSoon ⟨t, k⟩) : AcceptsSoon ⟨t, k⟩ := by
  rcases h with h | ⟨j, hj⟩
  · exact hedge h
  · by_cases hji : j = i
    · subst hji
      exact hpc hj
    · refine .inr ⟨j, ?_⟩
      show (t.worker j).accepts = true
      rw [hworker, Function.update_of_ne hji]
      exact hj

lemma acceptsSoon_of_pc (hworker : t.worker = Function.update s.server.worker i pc)
    (hpc : pc.accepts = true) : AcceptsSoon ⟨t, k⟩ := by
  refine .inr ⟨i, ?_⟩
  show (t.worker i).accepts = true
  rw [hworker, Function.update_self]
  exact hpc

/-- A worker goes on, and whoever else was to handle the descriptor still is. -/
lemma HandlesSoon.goes (h : s.HandlesSoon fd)
    (hworker : t.worker = Function.update s.server.worker i pc)
    (hedge : s.kernel.edge fd = true → HandlesSoon ⟨t, k⟩ fd)
    (hpc : ∀ e ∈ (s.server.worker i).clients, e.fd = fd → e ∈ pc.clients) :
    HandlesSoon ⟨t, k⟩ fd := by
  rcases h with h | ⟨j, e, he, hfd⟩
  · exact hedge h
  · refine .inr ⟨j, e, ?_, hfd⟩
    show e ∈ (t.worker j).clients
    rw [hworker]
    by_cases hji : j = i
    · subst hji
      rw [Function.update_self]
      exact hpc e he hfd
    · rw [Function.update_of_ne hji]
      exact he

/-- A worker goes on, the descriptors are as they were, and no more is there to be read. -/
lemma Told.goes (hs : s.Told) (hworker : t.worker = Function.update s.server.worker i pc)
    (hrunning : t.running = true → s.server.running = true) (htable : t.table = s.server.table)
    (hregistered : t.registered = s.server.registered) (hbacklog : k.backlog = s.kernel.backlog)
    (hlistenEdge : k.listenEdge = s.kernel.listenEdge) (hedge : k.edge = s.kernel.edge)
    (hreadable : ∀ fd, k.Readable fd → s.kernel.Readable fd)
    (haccepts : t.running = true → 0 < k.backlog → (s.server.worker i).accepts = true →
      AcceptsSoon ⟨t, k⟩)
    (hclients : ∀ fd, k.Readable fd → ∀ e ∈ (s.server.worker i).clients, e.fd = fd →
      e ∈ pc.clients) : Told ⟨t, k⟩ where
  missed := by
    refine ⟨fun hruns hwaits => ?_, fun hruns fd hfd hreads => ?_⟩
    · have hsoon := hs.missed.accepts (hrunning hruns) (hbacklog ▸ hwaits)
      exact hsoon.goes hworker (fun h => .inl (hlistenEdge.trans h)) (haccepts hruns hwaits)
    · have hfd' : s.server.registered fd = true := hregistered ▸ hfd
      have hsoon := hs.missed.reads (hrunning hruns) fd hfd' (hreadable fd hreads)
      exact hsoon.goes hworker (fun h => .inl ((congrFun hedge fd).trans h)) (hclients fd hreads)
  unregistered := by
    intro fd hfd
    show t.registered fd = false
    rw [hregistered]
    exact hs.unregistered fd (htable ▸ hfd)

/-- A worker closes a descriptor: nothing is there to be read on it any more. -/
lemma Told.closes (hs : s.Told) {e : Client} (hsame : pc.accepts = (s.server.worker i).accepts)
    (hclients : ∀ e' ∈ (s.server.worker i).clients, e'.fd ≠ e.fd → e' ∈ pc.clients) :
    Told ⟨(s.server.closeFd i e).setPc i pc, s.kernel.set e.fd 0 false false⟩ where
  missed := by
    have hworker : ((s.server.closeFd i e).setPc i pc).worker =
        Function.update s.server.worker i pc := rfl
    refine ⟨fun hruns hwaits => ?_, fun hruns fd hfd hreads => ?_⟩
    · have hsoon := hs.missed.accepts hruns hwaits
      refine hsoon.goes hworker .inl fun hpc => acceptsSoon_of_pc hworker (hsame.trans hpc)
    · rw [readable_set] at hreads
      have hregistered : (s.server.closeFd i e).registered fd = true := hfd
      rw [EpollServer.registered_closeFd] at hregistered
      split_ifs at hregistered hreads with hne
      refine (hs.missed.reads hruns fd hregistered hreads).goes hworker (fun h => .inl ?_)
        fun e' he' hfd' => hclients e' he' fun heq => hne (hfd'.symm.trans heq)
      exact (Function.update_of_ne hne _ _).trans h
  unregistered := by
    intro fd hfd
    show (s.server.closeFd i e).registered fd = false
    rw [EpollServer.registered_closeFd]
    split
    · rfl
    · next hne => exact hs.unregistered fd ((Function.update_of_ne hne _ _).symm.trans hfd)

/-- A worker that waited is told of descriptors. -/
lemma Told.waits (hs : s.Told) {events : List Event} (hi : s.server.worker i = .waiting) :
    Told ⟨s.server.setPc i (.dispatch events), s.kernel.report events⟩ where
  missed := by
    have hworker : (s.server.setPc i (.dispatch events)).worker =
        Function.update s.server.worker i (.dispatch events) := rfl
    refine ⟨fun hruns hwaits => ?_, fun hruns fd hfd hreads => ?_⟩
    · refine (hs.missed.accepts hruns hwaits).goes hworker (fun h => ?_) fun hpc => ?_
      · by_cases hevent : none ∈ events
        · exact acceptsSoon_of_pc hworker (decide_eq_true hevent)
        · exact .inl (by simp only [Kernel.report, h, hevent, not_false_eq_true, decide_true,
            Bool.and_true])
      · rw [hi] at hpc
        cases hpc
    · refine (hs.missed.reads hruns fd hfd hreads).goes hworker (fun h => ?_) fun e he => ?_
      · by_cases hevent : ∀ e ∈ events.reduceOption, e.fd ≠ fd
        · exact .inl (by simp only [Kernel.report, h, decide_eq_true hevent, Bool.and_true])
        · push Not at hevent
          obtain ⟨e, he, hfd⟩ := hevent
          refine .inr ⟨i, e, ?_, hfd⟩
          show e ∈ ((s.server.setPc i (.dispatch events)).worker i).clients
          rw [hworker, Function.update_self]
          exact he
      · rw [hi] at he
        cases he
  unregistered := hs.unregistered

/-- A worker accepts a connection, and goes on to register it. -/
lemma Told.accepts (hs : s.Told) {events : List Event} {conn n : ℕ} {ended : Bool}
    (hi : s.server.worker i = .accepting events) (hfree : s.server.table fd = none) :
    Told ⟨(s.server.acceptFd fd).setPc i (.adding ⟨fd, conn⟩ events),
      { s.kernel.set fd n ended false with backlog := s.kernel.backlog - 1 }⟩ where
  missed := by
    have hworker : ((s.server.acceptFd fd).setPc i (.adding ⟨fd, conn⟩ events)).worker =
        Function.update s.server.worker i (.adding ⟨fd, conn⟩ events) := rfl
    refine ⟨fun _ _ => acceptsSoon_of_pc hworker rfl, fun hruns fd' hfd' hreads => ?_⟩
    have hregistered : s.server.registered fd' = true := hfd'
    have hne : fd' ≠ fd := by
      rintro rfl
      rw [hs.unregistered fd' hfree] at hregistered
      cases hregistered
    have hreadable : (s.kernel.set fd n ended false).Readable fd' := hreads
    rw [readable_set, if_neg hne] at hreadable
    refine (hs.missed.reads hruns fd' hregistered hreadable).goes hworker (fun h => .inl ?_)
      fun e he _ => ?_
    · exact (Function.update_of_ne hne _ _).trans h
    · rw [hi] at he
      exact he
  unregistered := by
    intro fd' hfd'
    by_cases hne : fd' = fd
    · subst hne
      exact hs.unregistered fd' hfree
    · exact hs.unregistered fd' ((Function.update_of_ne hne _ _).symm.trans hfd')

/-- A worker registers the connection it has accepted, and what has come in on it is reported. -/
lemma Told.adds (hs : s.Told) {e : Client} {events : List Event}
    (hi : s.server.worker i = .adding e events) (hopen : s.server.table e.fd ≠ none) :
    Told ⟨(s.server.addFd e).setPc i (.accepting events),
      s.kernel.set e.fd (s.kernel.unread e.fd) (s.kernel.ended e.fd)
        (decide (s.kernel.Readable e.fd))⟩ where
  missed := by
    have hworker : ((s.server.addFd e).setPc i (.accepting events)).worker =
        Function.update s.server.worker i (.accepting events) := rfl
    refine ⟨fun _ _ => acceptsSoon_of_pc hworker rfl, fun hruns fd hfd hreads => ?_⟩
    by_cases hne : fd = e.fd
    · subst hne
      rw [readable_set, if_pos rfl] at hreads
      refine .inl ?_
      show Function.update s.kernel.edge e.fd _ e.fd = true
      rw [Function.update_self]
      exact decide_eq_true hreads
    · have hregistered : s.server.registered fd = true :=
        (Function.update_of_ne hne _ _).symm.trans hfd
      rw [readable_set, if_neg hne] at hreads
      refine (hs.missed.reads hruns fd hregistered hreads).goes hworker (fun h => .inl ?_)
        fun e' he' _ => ?_
      · exact (Function.update_of_ne hne _ _).trans h
      · rw [hi] at he'
        exact he'
  unregistered := by
    intro fd hfd
    have hne : fd ≠ e.fd := by
      rintro rfl
      exact hopen hfd
    exact (Function.update_of_ne hne _ _).trans (hs.unregistered fd hfd)

lemma act_eq_some {a : EpollServer.Action ι} :
    s.act a k = some s' ↔ ∃ t, s.server.step a = some t ∧ s' = ⟨t, k⟩ := by
  unfold act
  rw [Option.map_eq_some_iff]
  exact exists_congr fun t => and_congr_right fun _ => eq_comm

/-- The next round of the loop over the events. -/
lemma Told.next (hs : s.Told) (hstep : s.act (.next i) s.kernel = some s') : s'.Told := by
  obtain ⟨t, ht, rfl⟩ := act_eq_some.1 hstep
  -- with the same events left, a worker accepts and handles what it was to
  have hgoes {pc : Pc} (haccepts : (s.server.worker i).accepts = true → pc.accepts = true)
      (hclients : ∀ e ∈ (s.server.worker i).clients, e ∈ pc.clients) :
      Told ⟨s.server.setPc i pc, s.kernel⟩ :=
    hs.goes rfl id rfl rfl rfl rfl rfl (fun _ h => h)
      (fun _ _ h => acceptsSoon_of_pc rfl (haccepts h)) fun _ _ e he _ => hclients e he
  simp only [EpollServer.step] at ht
  split at ht <;> rename_i hi
  · cases ht
    refine hgoes ?_ ?_ <;> rw [hi]
    · exact fun h => Bool.noConfusion h
    · exact fun e he => by cases he
  · rename_i event events
    by_cases hruns : s.server.running = true
    · rw [if_pos hruns] at ht
      cases event with
      | none =>
        cases ht
        refine hgoes ?_ ?_ <;> rw [hi]
        · exact fun _ => rfl
        · exact fun e he => he
      | some e =>
        cases ht
        refine hgoes ?_ ?_ <;> rw [hi]
        · intro h
          simpa [Pc.accepts] using h
        · exact fun e he => he
    · rw [if_neg hruns] at ht
      cases ht
      exact hs.of_not_running (eq_false_of_ne_true hruns) rfl rfl
  · cases ht

/-- A `recv`: where it fails with `EAGAIN` nothing is left to be read. -/
lemma Told.recv (hs : s.Told) {e : Client} {events : List Event} {answer : RecvAnswer}
    {taken : ℕ} (hi : s.server.worker i = .receiving e events)
    (hanswers : s.kernel.Answers e.fd taken answer) :
    Told ⟨(s.server.record i e (.recv answer)).setPc i (EpollServer.afterRecv e events answer),
      s.kernel.set e.fd (s.kernel.unread e.fd - taken) (s.kernel.ended e.fd)
        (s.kernel.edge e.fd)⟩ := by
  have hreadable (fd : ℕ) (h : (s.kernel.set e.fd (s.kernel.unread e.fd - taken)
      (s.kernel.ended e.fd) (s.kernel.edge e.fd)).Readable fd) : s.kernel.Readable fd := by
    rw [readable_set] at h
    split_ifs at h with hfd
    · rw [hfd]
      exact h.imp_left fun hleft => Nat.lt_of_lt_of_le hleft (Nat.sub_le _ _)
    · exact h
  refine hs.goes rfl id rfl rfl rfl rfl (Function.update_eq_self _ _) hreadable
    (fun _ _ h => acceptsSoon_of_pc rfl ?_) fun fd hreads e' he' hfd => ?_
  · rw [hi] at h
    cases answer <;> exact h
  · rw [hi] at he'
    cases answer with
    | data | ended | failed => exact he'
    | again =>
      refine (List.mem_cons.1 he').resolve_left fun heq => hanswers.2 ?_
      rw [← heq, hfd]
      exact hreadable fd hreads

/-- A worker leaves the accept loop. -/
lemma Told.leaves (hs : s.Told) {events : List Event} (hi : s.server.worker i = .accepting events)
    (hleaves : s.server.running = true → 0 < s.kernel.backlog →
      s.kernel.listenEdge = true ∨ none ∈ events ∨
        ∃ j, j ≠ i ∧ (s.server.worker j).accepts = true) :
    Told ⟨s.server.setPc i (.dispatch events), s.kernel⟩ := by
  refine hs.goes rfl id rfl rfl rfl rfl rfl (fun _ h => h) (fun hruns hwaits _ => ?_)
    fun fd _ e he _ => ?_
  · rcases hleaves hruns hwaits with h | h | ⟨j, hj, h⟩
    · exact .inl h
    · exact acceptsSoon_of_pc rfl (decide_eq_true h)
    · refine .inr ⟨j, ?_⟩
      show (Function.update s.server.worker i _ j).accepts = true
      rw [Function.update_of_ne hj]
      exact h
  · rw [hi] at he
    exact he

/-- The step lemma. -/
lemma preserves_told : Preserves step (LeavesNoBacklog (ι := ι)) Told := by
  intro s a s' hs hleaves hstep
  cases a with
  | connect =>
    cases hstep
    exact ⟨⟨fun _ _ => .inl rfl, hs.missed.reads⟩, hs.unregistered⟩
  | arrive fd n =>
    simp only [step, Option.ite_none_right_eq_some, Option.some.injEq] at hstep
    obtain ⟨-, rfl⟩ := hstep
    exact hs.arrives
  | finish fd =>
    simp only [step, Option.ite_none_right_eq_some, Option.some.injEq] at hstep
    obtain ⟨-, rfl⟩ := hstep
    exact hs.arrives
  | stop =>
    obtain ⟨t, ht, rfl⟩ := act_eq_some.1 hstep
    cases ht
    exact hs.of_not_running rfl rfl rfl
  | wait i events =>
    simp only [step, Option.ite_none_right_eq_some] at hstep
    obtain ⟨t, ht, rfl⟩ := act_eq_some.1 hstep.2
    simp only [EpollServer.step] at ht
    split at ht <;> rename_i hi
    · split_ifs at ht with hruns
      · cases ht
        exact hs.waits hi
      · cases ht
        exact hs.of_not_running (eq_false_of_ne_true hruns) rfl rfl
    · cases ht
  | next i => exact hs.next hstep
  | recv i answer taken =>
    simp only [step] at hstep
    split at hstep <;> rename_i hi
    · split_ifs at hstep with hruns hanswers
      · obtain ⟨t, ht, rfl⟩ := act_eq_some.1 hstep
        simp only [EpollServer.step, hi, if_pos hruns, Option.ite_none_left_eq_some,
          Option.some.injEq] at ht
        obtain ⟨-, rfl⟩ := ht
        exact hs.recv hi hanswers
      · obtain ⟨t, ht, rfl⟩ := act_eq_some.1 hstep
        simp only [EpollServer.step, hi, if_neg hruns, Option.some.injEq] at ht
        subst ht
        exact hs.of_not_running (eq_false_of_ne_true hruns) rfl rfl
    · cases hstep
  | close i =>
    simp only [step] at hstep
    split at hstep <;> rename_i hi
    · obtain ⟨t, ht, rfl⟩ := act_eq_some.1 hstep
      simp only [EpollServer.step, hi, Option.some.injEq] at ht
      subst ht
      refine hs.closes (by rw [hi]; rfl) fun e' he' hne => ?_
      rw [hi] at he'
      exact (List.mem_cons.1 he').resolve_left fun heq => hne (congrArg Client.fd heq)
    · cases hstep
  | accept i fd unread ended =>
    simp only [step, Option.ite_none_right_eq_some] at hstep
    obtain ⟨⟨hruns, -⟩, hstep⟩ := hstep
    obtain ⟨t, ht, rfl⟩ := act_eq_some.1 hstep
    simp only [EpollServer.step] at ht
    split at ht <;> rename_i hi
    · simp only [if_pos hruns, Option.ite_none_right_eq_some, Option.some.injEq] at ht
      obtain ⟨hfree, rfl⟩ := ht
      exact hs.accepts hi hfree
    · cases ht
  | acceptFails i again =>
    simp only [step, Option.ite_none_right_eq_some] at hstep
    obtain ⟨t, ht, rfl⟩ := act_eq_some.1 hstep.2
    simp only [EpollServer.step] at ht
    split at ht <;> rename_i hi
    · rename_i events
      have ht' : t = s.server.setPc i (.dispatch events) := by
        split_ifs at ht <;> exact (Option.some.inj ht).symm
      subst ht'
      exact hs.leaves hi (hleaves events hi)
    · cases ht
  | add i ok =>
    simp only [step] at hstep
    split at hstep <;> rename_i hi
    · split_ifs at hstep with hok
      · obtain ⟨t, ht, rfl⟩ := act_eq_some.1 hstep
        simp only [EpollServer.step, hi, if_true, Option.ite_none_left_eq_some,
          Option.some.injEq] at ht
        obtain ⟨hfree, rfl⟩ := ht
        exact hs.adds hi fun h => hfree (.inl h)
      · obtain ⟨t, ht, rfl⟩ := act_eq_some.1 hstep
        simp only [EpollServer.step, hi, Bool.false_eq_true, if_false, Option.some.injEq] at ht
        subst ht
        refine hs.goes rfl id rfl rfl rfl rfl rfl (fun _ h => h)
          (fun _ _ _ => acceptsSoon_of_pc rfl rfl) fun fd _ e' he' _ => ?_
        rw [hi] at he'
        exact he'
    · cases hstep
  | drop i =>
    simp only [step] at hstep
    split at hstep <;> rename_i hi
    · obtain ⟨t, ht, rfl⟩ := act_eq_some.1 hstep
      simp only [EpollServer.step, hi, Option.some.injEq] at ht
      subst ht
      refine hs.closes (by rw [hi]; rfl) fun e' he' _ => ?_
      rw [hi] at he'
      exact he'
    · cases hstep

/-- Where somebody is still to accept after `accept4` has failed, it is not the worker for this
event. -/
lemma leavesNoBacklog_of_missed {a : EdgeAction ι} (hstep : s.step a = some s')
    (hmissed : s'.NothingMissed) : s.LeavesNoBacklog a := by
  cases a with
  | acceptFails i again =>
    intro events hi hruns hwaits
    simp only [step, Option.ite_none_right_eq_some] at hstep
    obtain ⟨t, ht, rfl⟩ := act_eq_some.1 hstep.2
    simp only [EpollServer.step, hi, if_pos hruns, Option.some.injEq] at ht
    subst ht
    rcases hmissed.accepts hruns hwaits with h | ⟨j, hj⟩
    · exact .inl h
    · have hj' : (Function.update s.server.worker i (.dispatch events) j).accepts = true := hj
      by_cases hji : j = i
      · rw [hji, Function.update_self] at hj'
        exact .inr (.inl (of_decide_eq_true hj'))
      · rw [Function.update_of_ne hji] at hj'
        exact .inr (.inr ⟨j, hji, hj'⟩)
  | connect | arrive | finish | stop | wait | next | recv | close | accept | add | drop => trivial

end Goes

/-- **Nothing is left unread, but for what a failing `accept4` leaves.**  Any number of workers, any
interleaving, and anything that comes in at any time: throughout a run somebody has been told of
every registered descriptor that can be read and of a backlog with connections in it, exactly if
no worker leaves its accept loop with a connection in the backlog of which nobody else has been
told. -/
theorem nothingMissed_throughout_iff [DecidableEq ι] (acts : List (EdgeAction ι)) :
    Throughout step NothingMissed new acts ↔ Along step LeavesNoBacklog new acts :=
  preserves_told.throughout_iff (fun _ h => h.missed)
    (fun _ _ _ _ hstep hmissed => leavesNoBacklog_of_missed hstep hmissed) told_new

end EdgeServer

end ClientServer.Simpleepoll
