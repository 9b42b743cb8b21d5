import ClientServer.Library.Runs
import ClientServer.Simpleepoll.EpollServer
import Mathlib.Data.Fintype.Basic

/-!
# Which worker closes which connection

As long as a worker closes a connection only when no other one has an event of it left, all calls
are done on the right connection, and whoever reads the end of one closes it, once.  What `stop`
finds open is closed behind it only by a worker that was about to do so, or that then fails to
register it (`throughout_ownOnly`).

The invariant says that what a worker has to handle is open under its number (`WorkersOwn`), that
the table and the log agree (`TableOwn`), and that no end of a connection is forgotten.
-/

namespace ClientServer.Simpleepoll.EpollServer

variable {ι : Type*}

/-- How often a connection was closed. -/
def closes (s : EpollServer ι) (conn : ℕ) : ℕ :=
  s.log.countP fun op => op.call == .close && op.target == some conn

/-- A connection that was accepted and has a descriptor. -/
def IsOpen (s : EpollServer ι) (conn : ℕ) : Prop := ∃ fd, s.table fd = some conn

/-- What is open is in the interest set, or a worker that has accepted it is about to register it,
or to close it. -/
def Watched (s : EpollServer ι) : Prop :=
  ∀ e : Client, s.table e.fd = some e.conn →
    s.registered e.fd = true ∨ ∃ i, e ∈ (s.worker i).fresh

/-- A connection whose end or error a worker has read was closed once, or this worker is about to
close it. -/
def TornDown (s : EpollServer ι) : Prop :=
  ∀ op ∈ s.log, op.call.ends = true →
    (∃ e ∈ (s.worker op.worker).closes, e.conn = op.owner) ∨ s.closes op.owner = 1

/-- What a worker does is done on the connection that it handles.  A connection is closed when it
is no longer open, and only once; what is open is watched, and whoever reads its end closes it. -/
structure OwnOnly (s : EpollServer ι) : Prop where
  own : ∀ op ∈ s.log, op.target = some op.owner
  not_closed : ∀ conn, s.IsOpen conn → s.closes conn = 0
  closed_once : ∀ conn < s.accepted, ¬ s.IsOpen conn → s.closes conn = 1
  watched : s.Watched
  tornDown : s.TornDown

/-- Every connection that was not closed is about to be closed or registered by a worker. -/
def Settled (s : EpollServer ι) : Prop :=
  ∀ conn < s.accepted, s.closes conn = 0 → ∃ i, ∃ e ∈ (s.worker i).busyWith, e.conn = conn

instance [Fintype ι] (s : EpollServer ι) : Decidable s.Settled :=
  inferInstanceAs (Decidable (∀ conn < s.accepted, s.closes conn = 0 →
    ∃ i, ∃ e ∈ (s.worker i).busyWith, e.conn = conn))

/-- Once the server is told to stop, no connection is left to events; when all workers have ended,
every connection was closed once. -/
structure ClosesAll (s : EpollServer ι) : Prop where
  settled : s.running = false → s.Settled
  closed : s.running = false → (∀ i, s.worker i = .stopped) →
    ∀ conn < s.accepted, s.closes conn = 1

/-- When a worker closes a connection, no other worker has an event of it left to handle. -/
def LastEvent (s : EpollServer ι) : Action ι → Prop
  | .close i => ∀ e ∈ (s.worker i).closes,
    ∀ j, j ≠ i → ∀ e' ∈ (s.worker j).clients, e'.conn ≠ e.conn
  | _ => True

instance [Fintype ι] [DecidableEq ι] (s : EpollServer ι) : DecidablePred s.LastEvent
  | .close i => inferInstanceAs (Decidable (∀ e ∈ (s.worker i).closes, _))
  | .stop | .wait .. | .next .. | .recv .. | .accept .. | .add .. | .drop .. => isTrue trivial

/-- The server is told to stop when all connections are closed or about to be, and registers none
behind that. -/
def StopsIdle (s : EpollServer ι) : Action ι → Prop
  | .stop => s.Settled
  | .add _ true => s.running = true
  | _ => True

instance [Fintype ι] (s : EpollServer ι) : DecidablePred s.StopsIdle
  | .stop => inferInstanceAs (Decidable s.Settled)
  | .add _ true => inferInstanceAs (Decidable (s.running = true))
  | .add _ false | .wait .. | .next .. | .recv .. | .close .. | .accept .. | .drop .. =>
    isTrue trivial

/-! ## The invariant -/

/-- What the workers have to handle is open under its number: what was reported is registered,
and what is not yet registered has one worker. -/
structure WorkersOwn (s : EpollServer ι) : Prop where
  clients : ∀ i, ∀ e ∈ (s.worker i).clients, s.table e.fd = some e.conn ∧ s.registered e.fd = true
  nodup : ∀ i, (s.worker i).clients.Nodup
  fresh : ∀ i, ∀ e ∈ (s.worker i).fresh, s.table e.fd = some e.conn ∧ s.registered e.fd = false
  fresh_inj : ∀ i j, ∀ e ∈ (s.worker i).fresh, e ∈ (s.worker j).fresh → i = j

/-- Descriptors and connections belong together, and the calls done so far were right. -/
structure TableOwn (s : EpollServer ι) : Prop where
  registered : ∀ fd, s.table fd = none → s.registered fd = false
  inj : ∀ fd fd' conn, s.table fd = some conn → s.table fd' = some conn → fd = fd'
  lt : ∀ fd conn, s.table fd = some conn → conn < s.accepted
  own : ∀ op ∈ s.log, op.target = some op.owner
  not_closed : ∀ conn, s.IsOpen conn ∨ s.accepted ≤ conn → s.closes conn = 0
  closed_once : ∀ conn < s.accepted, ¬ s.IsOpen conn → s.closes conn = 1

/-- All of it. -/
structure Inv (s : EpollServer ι) : Prop where
  workers : WorkersOwn s
  table : TableOwn s
  watched : s.Watched
  tornDown : s.TornDown

variable {s s' : EpollServer ι} {i : ι} {e : Client} {events : List Event}

lemma Inv.ownOnly (hs : Inv s) : s.OwnOnly where
  own := hs.table.own
  not_closed := fun conn hopen => hs.table.not_closed conn (Or.inl hopen)
  closed_once := hs.table.closed_once
  watched := hs.watched
  tornDown := hs.tornDown

lemma Inv.closes_eq_one (hs : Inv s) {conn : ℕ} (hlt : conn < s.accepted)
    (h : s.closes conn ≠ 0) : s.closes conn = 1 :=
  hs.table.closed_once conn hlt fun hopen => h (hs.table.not_closed conn (.inl hopen))

/-- What is settled is closed when no worker is busy any more. -/
lemma Inv.closesAll_iff (hs : Inv s) : s.ClosesAll ↔ (s.running = false → s.Settled) := by
  refine ⟨fun h => h.settled, fun h => ⟨h, fun hstopped hworkers conn hlt =>
    hs.closes_eq_one hlt fun hopen => ?_⟩⟩
  obtain ⟨i, e, he, -⟩ := h hstopped conn hlt hopen
  rw [hworkers i] at he
  cases he

/-- While the server runs, only `stop` can leave a connection behind. -/
lemma stopsIdle_of_running {a : Action ι} (ha : a ≠ .stop) (hruns : s.running = true) :
    s.StopsIdle a := by
  cases a with
  | stop => exact absurd rfl ha
  | add i ok =>
    cases ok with
    | true => exact hruns
    | false => trivial
  | wait | next | recv | close | accept | drop => trivial

lemma stopsIdle_of_settled {a : Action ι} (ha : ∀ i, a ≠ .add i true) (hsettled : s.Settled) :
    s.StopsIdle a := by
  cases a with
  | stop => exact hsettled
  | add i ok =>
    cases ok with
    | true => exact absurd rfl (ha i)
    | false => trivial
  | wait | next | recv | close | accept | drop => trivial

/-- Workers that have nothing new to handle, where nothing changes for what they have. -/
lemma WorkersOwn.mono (hs : WorkersOwn s)
    (hclients : ∀ j, (s'.worker j).clients.Sublist (s.worker j).clients)
    (hfresh : ∀ j, ∀ e ∈ (s'.worker j).fresh, e ∈ (s.worker j).fresh)
    (hsame : ∀ j e, e ∈ (s'.worker j).clients ∨ e ∈ (s'.worker j).fresh →
      s'.table e.fd = s.table e.fd ∧ s'.registered e.fd = s.registered e.fd) : WorkersOwn s' where
  clients := by
    intro j e he
    obtain ⟨htable, hregistered⟩ := hsame j e (Or.inl he)
    rw [htable, hregistered]
    exact hs.clients j e ((hclients j).subset he)
  nodup := fun j => (hs.nodup j).sublist (hclients j)
  fresh := by
    intro j e he
    obtain ⟨htable, hregistered⟩ := hsame j e (Or.inr he)
    rw [htable, hregistered]
    exact hs.fresh j e (hfresh j e he)
  fresh_inj := fun j k e hj hk => hs.fresh_inj j k e (hfresh j e hj) (hfresh k e hk)

/-- What is not yet registered is not what an event was reported for. -/
lemma WorkersOwn.fd_ne (hs : WorkersOwn s) {j k : ι} {e e' : Client}
    (he : e ∈ (s.worker j).clients) (he' : e' ∈ (s.worker k).fresh) : e.fd ≠ e'.fd := by
  intro hfd
  have hregistered := (hs.clients j e he).2
  rw [hfd, (hs.fresh k e' he').2] at hregistered
  cases hregistered

/-- Two workers that have accepted connections have accepted different ones. -/
lemma WorkersOwn.eq_of_fresh_fd (hs : WorkersOwn s) {j k : ι} {e e' : Client}
    (he : e ∈ (s.worker j).fresh) (he' : e' ∈ (s.worker k).fresh) (hfd : e.fd = e'.fd) :
    j = k := by
  have htable := (hs.fresh j e he).1
  rw [hfd, (hs.fresh k e' he').1, Option.some_inj] at htable
  have heq : e = e' := Client.ext hfd htable.symm
  exact hs.fresh_inj j k e he (heq ▸ he')

/-! ## The table -/

lemma mem_log_record {call : Call} (hs : TableOwn s) (he : s.table e.fd = some e.conn) :
    ∀ op ∈ (s.record i e call).log, op.target = some op.owner := by
  intro op hop
  rcases List.mem_append.mp hop with hop | hop
  · exact hs.own op hop
  · rw [List.mem_singleton.mp hop]
    exact he

lemma closes_record_recv {answer : RecvAnswer} (conn : ℕ) :
    (s.record i e (.recv answer)).closes conn = s.closes conn := by
  have hcall : (Call.recv answer == .close) = false := beq_false_of_ne nofun
  simp only [closes, record, List.countP_append, List.countP_singleton, hcall, Bool.false_and,
    Bool.false_eq_true, if_false, Nat.add_zero]

lemma closes_closeFd (he : s.table e.fd = some e.conn) (conn : ℕ) :
    (s.closeFd i e).closes conn = s.closes conn + if e.conn = conn then 1 else 0 := by
  simp only [closes, closeFd, record, List.countP_append, List.countP_singleton, BEq.rfl,
    Bool.true_and, he, beq_iff_eq, Option.some.injEq]

lemma TableOwn.recv {answer : RecvAnswer} (hs : TableOwn s) (he : s.table e.fd = some e.conn) :
    TableOwn (s.record i e (.recv answer)) where
  registered := hs.registered
  inj := hs.inj
  lt := hs.lt
  own := mem_log_record hs he
  not_closed := fun conn h => (closes_record_recv conn).trans (hs.not_closed conn h)
  closed_once := fun conn hlt h => (closes_record_recv conn).trans (hs.closed_once conn hlt h)

/-- The connection that is closed is no longer open, all others are as they were. -/
lemma TableOwn.isOpen_closeFd (hs : TableOwn s) (he : s.table e.fd = some e.conn) (conn : ℕ) :
    (s.closeFd i e).IsOpen conn ↔ s.IsOpen conn ∧ conn ≠ e.conn := by
  constructor
  · rintro ⟨fd, hfd⟩
    obtain ⟨hne, hold⟩ := table_closeFd.mp hfd
    refine ⟨⟨fd, hold⟩, ?_⟩
    rintro rfl
    exact hne (hs.inj _ _ _ hold he)
  · rintro ⟨⟨fd, hfd⟩, hne⟩
    refine ⟨fd, table_closeFd.mpr ⟨?_, hfd⟩⟩
    rintro rfl
    rw [he, Option.some_inj] at hfd
    exact hne hfd.symm

lemma TableOwn.closeFd (hs : TableOwn s) (he : s.table e.fd = some e.conn) :
    TableOwn (s.closeFd i e) where
  registered := by
    intro fd hfd
    rw [registered_closeFd]
    split
    · rfl
    · next hne =>
      exact hs.registered fd ((Function.update_of_ne hne _ _).symm.trans hfd)
  inj := fun fd fd' conn hfd hfd' =>
    hs.inj fd fd' conn (table_closeFd.mp hfd).2 (table_closeFd.mp hfd').2
  lt := fun fd conn hfd => hs.lt fd conn (table_closeFd.mp hfd).2
  own := mem_log_record hs he
  not_closed := by
    intro conn h
    have hne : e.conn ≠ conn := by
      rintro rfl
      rcases h with hopen | hnew
      · exact ((hs.isOpen_closeFd he _).mp hopen).2 rfl
      · exact absurd (hs.lt _ _ he) (Nat.not_lt.mpr hnew)
    rw [closes_closeFd he, if_neg hne]
    exact hs.not_closed conn (h.imp_left fun hopen => ((hs.isOpen_closeFd he conn).mp hopen).1)
  closed_once := by
    intro conn hlt h
    rw [hs.isOpen_closeFd he, not_and_or, not_not] at h
    rw [closes_closeFd he]
    by_cases hsame : conn = e.conn
    · rw [hsame, if_pos rfl, hs.not_closed e.conn (Or.inl ⟨e.fd, he⟩)]
    · rw [if_neg (Ne.symm hsame)]
      exact hs.closed_once conn hlt (h.resolve_right hsame)

/-- What is closed was open, and had not been closed. -/
lemma TableOwn.closes_closeFd_self (hs : TableOwn s) (he : s.table e.fd = some e.conn) :
    (s.closeFd i e).closes e.conn = 1 := by
  rw [closes_closeFd he, if_pos rfl, hs.not_closed e.conn (.inl ⟨e.fd, he⟩)]

/-- The new connection is the next one. -/
lemma TableOwn.acceptFd (hs : TableOwn s) {fd : ℕ} (hfd : s.table fd = none) :
    TableOwn (s.acceptFd fd) where
  registered := by
    intro fd' hfd'
    by_cases h : fd' = fd
    · rw [h]
      exact hs.registered fd hfd
    · exact hs.registered fd' ((Function.update_of_ne h _ _).symm.trans hfd')
  inj := by
    intro fd₁ fd₂ conn h₁ h₂
    rcases (table_acceptFd hfd).mp h₁ with ⟨hnew₁, hconn⟩ | hold₁
    · rcases (table_acceptFd hfd).mp h₂ with ⟨hnew₂, -⟩ | hold₂
      · exact hnew₁.trans hnew₂.symm
      · exact absurd (hs.lt _ _ hold₂) (hconn ▸ lt_irrefl _)
    · rcases (table_acceptFd hfd).mp h₂ with ⟨-, hconn⟩ | hold₂
      · exact absurd (hs.lt _ _ hold₁) (hconn ▸ lt_irrefl _)
      · exact hs.inj _ _ _ hold₁ hold₂
  lt := by
    intro fd' conn h
    rcases (table_acceptFd hfd).mp h with ⟨-, rfl⟩ | h
    · exact Nat.lt_succ_self _
    · exact lt_trans (hs.lt _ _ h) (Nat.lt_succ_self _)
  own := hs.own
  not_closed := by
    intro conn h
    refine hs.not_closed conn ?_
    rcases h with ⟨fd', h⟩ | h
    · rcases (table_acceptFd hfd).mp h with ⟨-, rfl⟩ | h
      · exact Or.inr le_rfl
      · exact Or.inl ⟨fd', h⟩
    · exact Or.inr (le_trans (Nat.le_succ _) h)
  closed_once := by
    intro conn hlt h
    have hnew : s.accepted ≠ conn := fun heq =>
      h ⟨fd, (table_acceptFd hfd).mpr (Or.inl ⟨rfl, heq⟩)⟩
    refine hs.closed_once conn ?_ fun ⟨fd', hopen⟩ =>
      h ⟨fd', (table_acceptFd hfd).mpr (Or.inr hopen)⟩
    exact lt_of_le_of_ne (Nat.lt_succ_iff.mp hlt) (Ne.symm hnew)

lemma TableOwn.addFd (hs : TableOwn s) (he : s.table e.fd ≠ none) : TableOwn (s.addFd e) where
  registered := by
    intro fd hfd
    have hne : fd ≠ e.fd := by
      rintro rfl
      exact he hfd
    exact (Function.update_of_ne hne _ _).trans (hs.registered fd hfd)
  inj := hs.inj
  lt := hs.lt
  own := hs.own
  not_closed := hs.not_closed
  closed_once := hs.closed_once

section Workers

variable [DecidableEq ι] {pc : Pc}

lemma TableOwn.setPc (hs : TableOwn s) : TableOwn (s.setPc i pc) :=
  ⟨hs.registered, hs.inj, hs.lt, hs.own, hs.not_closed, hs.closed_once⟩

/-- What holds of the workers after one of them went on. -/
lemma forall_update (s : EpollServer ι) {P : ι → Pc → Prop} (hi : P i pc)
    (hother : ∀ j, j ≠ i → P j (s.worker j)) : ∀ j, P j (Function.update s.worker i pc j) :=
  (Function.forall_update_iff s.worker P).mpr ⟨hi, hother⟩

/-- A worker that goes on with nothing new. -/
lemma clients_update {pc₀ : Pc} (hi : s.worker i = pc₀) (hclients : pc.clients.Sublist pc₀.clients)
    (j : ι) : ((Function.update s.worker i pc) j).clients.Sublist (s.worker j).clients := by
  subst hi
  exact forall_update s (P := fun j q => q.clients.Sublist (s.worker j).clients) hclients
    (fun _ _ => List.Sublist.refl _) j

lemma fresh_update (hfresh : ∀ e ∈ pc.fresh, e ∈ (s.worker i).fresh) (j : ι) :
    ∀ e ∈ ((Function.update s.worker i pc) j).fresh, e ∈ (s.worker j).fresh :=
  forall_update s (P := fun j q => ∀ e ∈ q.fresh, e ∈ (s.worker j).fresh) hfresh
    (fun _ _ _ he => he) j

lemma WorkersOwn.setPc (hs : WorkersOwn s) (hclients : pc.clients.Sublist (s.worker i).clients)
    (hfresh : ∀ e ∈ pc.fresh, e ∈ (s.worker i).fresh) : WorkersOwn (s.setPc i pc) :=
  hs.mono (clients_update rfl hclients) (fresh_update hfresh) fun _ _ _ => ⟨rfl, rfl⟩

/-- Events are reported to a worker that has nothing left to handle. -/
lemma WorkersOwn.reported (hs : WorkersOwn s) (hreports : s.Reports events) :
    WorkersOwn (s.setPc i (.dispatch events)) := by
  obtain ⟨-, hnodup, hreportable⟩ := hreports
  have hnone : ∀ e, e ∉ (Pc.dispatch events).fresh := fun e he => by cases he
  have hfresh : ∀ j, ∀ e ∈ ((s.setPc i (.dispatch events)).worker j).fresh,
      e ∈ (s.worker j).fresh := fresh_update fun e he => absurd he (hnone e)
  refine ⟨?_, ?_, fun j e he => hs.fresh j e (hfresh j e he),
    fun j k e hj hk => hs.fresh_inj j k e (hfresh j e hj) (hfresh k e hk)⟩
  · refine forall_update s (P := fun _ q => ∀ e ∈ q.clients, s.Reportable (some e)) ?_
      fun j _ => hs.clients j
    exact fun e he => hreportable (some e) (List.reduceOption_mem_iff.mp he)
  · refine forall_update s (P := fun _ q => q.clients.Nodup) ?_ fun j _ => hs.nodup j
    refine hnodup.filterMap fun a b c ha hb => ?_
    exact (Option.mem_def.mp ha).trans (Option.mem_def.mp hb).symm

/-- A worker that has accepted a connection that no other worker has. -/
lemma WorkersOwn.setPc_adding (hs : WorkersOwn s) (hi : s.worker i = .accepting events)
    (htable : s.table e.fd = some e.conn) (hregistered : s.registered e.fd = false)
    (hnew : ∀ j, e ∉ (s.worker j).fresh) : WorkersOwn (s.setPc i (.adding e events)) := by
  have hclients : ∀ j, ((s.setPc i (.adding e events)).worker j).clients.Sublist
      (s.worker j).clients := clients_update hi (List.Sublist.refl _)
  have hfresh : ∀ j, ∀ e' ∈ ((s.setPc i (.adding e events)).worker j).fresh,
      j = i ∧ e' = e ∨ e' ≠ e ∧ e' ∈ (s.worker j).fresh := by
    refine forall_update s (P := fun j q => ∀ e' ∈ q.fresh,
      j = i ∧ e' = e ∨ e' ≠ e ∧ e' ∈ (s.worker j).fresh) ?_ ?_
    · exact fun e' he' => Or.inl ⟨rfl, (Option.some_inj.mp he').symm⟩
    · exact fun j _ e' he' => Or.inr ⟨fun heq => hnew j (heq ▸ he'), he'⟩
  refine ⟨fun j e' he' => hs.clients j e' ((hclients j).subset he'),
    fun j => (hs.nodup j).sublist (hclients j), fun j e' he' => ?_,
    fun j k e' hj hk => ?_⟩
  · rcases hfresh j e' he' with ⟨-, rfl⟩ | ⟨-, hold⟩
    · exact ⟨htable, hregistered⟩
    · exact hs.fresh j e' hold
  · rcases hfresh j e' hj with ⟨rfl, rfl⟩ | ⟨hne, hold⟩
    · rcases hfresh k e' hk with ⟨rfl, -⟩ | ⟨hne, -⟩
      · rfl
      · exact absurd rfl hne
    · rcases hfresh k e' hk with ⟨-, rfl⟩ | ⟨-, hold'⟩
      · exact absurd rfl hne
      · exact hs.fresh_inj j k e' hold hold'

/-- A worker that accepts a connection under a free number. -/
lemma Inv.accepted (hs : Inv s) {fd : ℕ} (hfd : s.table fd = none)
    (hi : s.worker i = .accepting events) :
    WorkersOwn ((s.acceptFd fd).setPc i (.adding ⟨fd, s.accepted⟩ events)) := by
  have hne : ∀ {e : Client}, s.table e.fd = some e.conn → e.fd ≠ fd := by
    rintro e he rfl
    rw [hfd] at he
    cases he
  have hkept : WorkersOwn (s.acceptFd fd) := by
    refine hs.workers.mono (fun _ => List.Sublist.refl _) (fun _ _ he => he) fun j e he => ?_
    have htable : s.table e.fd = some e.conn :=
      he.elim (fun he => (hs.workers.clients j e he).1) fun he => (hs.workers.fresh j e he).1
    exact ⟨Function.update_of_ne (hne htable) _ _, rfl⟩
  refine hkept.setPc_adding hi (Function.update_self _ _ _) (hs.table.registered fd hfd) ?_
  intro j he
  exact hne (hs.workers.fresh j _ he).1 rfl

/-- Once a worker is done with the connection it has accepted, nobody else has its number. -/
lemma WorkersOwn.fd_ne_of_done (hs : WorkersOwn s) {pc₀ : Pc} (hi : s.worker i = pc₀)
    (he : e ∈ pc₀.fresh) (hclients : pc.clients.Sublist pc₀.clients) (hpc : pc.fresh = none) (j : ι)
    (e' : Client) (he' : e' ∈ ((Function.update s.worker i pc) j).clients ∨
      e' ∈ ((Function.update s.worker i pc) j).fresh) : e'.fd ≠ e.fd := by
  subst hi
  rcases he' with he' | he'
  · exact hs.fd_ne (clients_update rfl hclients j |>.subset he') he
  · refine forall_update s (P := fun _ q => ∀ e' ∈ q.fresh, e'.fd ≠ e.fd) ?_ ?_ j e' he'
    · rw [hpc]
      exact fun e' he' => absurd he' (Option.not_mem_none e')
    · exact fun k hk e' he' hfd => hk (hs.eq_of_fresh_fd he' he hfd)

/-- A worker that registers the connection that it has accepted. -/
lemma WorkersOwn.added (hs : WorkersOwn s) (hi : s.worker i = .adding e events) :
    WorkersOwn ((s.addFd e).setPc i (.accepting events)) := by
  have hclients : (Pc.accepting events).clients.Sublist (Pc.adding e events).clients :=
    List.Sublist.refl _
  refine hs.mono (clients_update hi hclients) (fresh_update fun _ h => by cases h)
    fun j e' he' => ?_
  exact ⟨rfl, Function.update_of_ne (hs.fd_ne_of_done hi rfl hclients rfl j e' he') _ _⟩

/-- A worker that closes a connection of which nobody else has anything to handle. -/
lemma WorkersOwn.closed (hs : WorkersOwn s) {pc₀ : Pc} (hi : s.worker i = pc₀)
    (hclients : pc.clients.Sublist pc₀.clients) (hpc : pc.fresh = none)
    (hother : ∀ j, ∀ e', e' ∈ ((Function.update s.worker i pc) j).clients ∨
      e' ∈ ((Function.update s.worker i pc) j).fresh → e'.fd ≠ e.fd) :
    WorkersOwn ((s.closeFd i e).setPc i pc) :=
  hs.mono (clients_update hi hclients) (fresh_update (by rw [hpc]; exact nofun)) fun j e' he' =>
    ⟨Function.update_of_ne (hother j e' he') _ _, Function.update_of_ne (hother j e' he') _ _⟩

/-! ## What is open, and what has ended -/

/-- A worker goes on, and what it had accepted is registered, is closed, or is still with it. -/
lemma Watched.goes (hs : s.Watched) (hworker : s'.worker = Function.update s.worker i pc)
    (htable : ∀ e : Client, s'.table e.fd = some e.conn →
      s.table e.fd = some e.conn ∨ e ∈ pc.fresh)
    (hregistered : ∀ e : Client, s'.table e.fd = some e.conn → s.registered e.fd = true →
      s'.registered e.fd = true)
    (hfresh : ∀ e ∈ (s.worker i).fresh, s'.table e.fd = some e.conn →
      s'.registered e.fd = true ∨ e ∈ pc.fresh) : s'.Watched := by
  intro e he
  have hpc (h : e ∈ pc.fresh) : ∃ j, e ∈ (s'.worker j).fresh := by
    refine ⟨i, ?_⟩
    rw [hworker, Function.update_self]
    exact h
  rcases htable e he with hold | hnew
  · rcases hs e hold with hset | ⟨j, hj⟩
    · exact .inl (hregistered e he hset)
    · by_cases hji : j = i
      · subst hji
        exact (hfresh e hj he).imp_right hpc
      · refine .inr ⟨j, ?_⟩
        rw [hworker, Function.update_of_ne hji]
        exact hj
  · exact .inr (hpc hnew)

/-- A worker goes on, and what it was about to close is closed, or it still is. -/
lemma TornDown.goes (hs : s.TornDown) (hworker : s'.worker = Function.update s.worker i pc)
    (hlog : ∀ op ∈ s'.log, op.call.ends = true →
      op ∈ s.log ∨ op.worker = i ∧ ∃ e ∈ pc.closes, e.conn = op.owner)
    (hcloses : ∀ conn, s.closes conn = 1 → s'.closes conn = 1)
    (hpc : ∀ e ∈ (s.worker i).closes, s'.closes e.conn = 1 ∨ e ∈ pc.closes) : s'.TornDown := by
  intro op hop hends
  rcases hlog op hop hends with hold | ⟨hi, hnew⟩
  · rcases hs op hold hends with ⟨e, he, howner⟩ | hclosed
    · by_cases hi : op.worker = i
      · rw [hi] at he ⊢
        rw [hworker, Function.update_self, ← howner]
        exact (hpc e he).symm.imp_left fun h => ⟨e, h, rfl⟩
      · rw [hworker, Function.update_of_ne hi]
        exact .inl ⟨e, he, howner⟩
    · exact .inr (hcloses _ hclosed)
  · rw [hworker, hi, Function.update_self]
    exact .inl hnew

/-- A worker closes what it had to close. -/
lemma Inv.tornDown_closeFd (hs : Inv s) (he : s.table e.fd = some e.conn)
    (hpc : ∀ e' ∈ (s.worker i).closes, e' = e) : ((s.closeFd i e).setPc i pc).TornDown := by
  refine hs.tornDown.goes rfl (fun op hop hends => ?_) (fun conn hconn => ?_) fun e' he' => ?_
  · rcases List.mem_append.mp hop with hold | hnew
    · exact .inl hold
    · rw [List.mem_singleton.mp hnew] at hends
      cases hends
  · have hne : e.conn ≠ conn := by
      rintro rfl
      rw [hs.table.not_closed e.conn (.inl ⟨e.fd, he⟩)] at hconn
      cases hconn
    show (s.closeFd i e).closes conn = 1
    rw [closes_closeFd he, if_neg hne, hconn]
  · rw [hpc e' he']
    exact .inl (hs.table.closes_closeFd_self he)

/-- What is still open is watched as before. -/
lemma Watched.closeFd (hs : s.Watched) (hpc : ∀ e' ∈ (s.worker i).fresh, e' = e) :
    ((s.closeFd i e).setPc i pc).Watched := by
  have htable : ((s.closeFd i e).setPc i pc).table = (s.closeFd i e).table := rfl
  refine hs.goes rfl (fun e' he' => ?_) (fun e' he' hset => ?_) fun e' he' hopen => ?_
  · rw [htable] at he'
    exact .inl (table_closeFd.mp he').2
  · show (s.closeFd i e).registered e'.fd = true
    rw [htable] at he'
    rw [registered_closeFd, if_neg (table_closeFd.mp he').1]
    exact hset
  · rw [htable] at hopen
    exact absurd (congrArg Client.fd (hpc e' he')) (table_closeFd.mp hopen).1

lemma Watched.setPc (hs : s.Watched) (hfresh : pc.fresh = (s.worker i).fresh) :
    (s.setPc i pc).Watched := by
  refine hs.goes rfl (fun _ => .inl) (fun _ _ hset => hset) fun e he _ => ?_
  rw [hfresh]
  exact .inr he

lemma TornDown.setPc (hs : s.TornDown) (hcloses : (s.worker i).closes = none) :
    (s.setPc i pc).TornDown := by
  refine hs.goes rfl (fun _ hop _ => .inl hop) (fun _ h => h) fun e he => ?_
  rw [hcloses] at he
  cases he

/-! ## What a step does -/

/-- What a step does. -/
inductive Steps (s : EpollServer ι) : Action ι → EpollServer ι → Prop
  | stopped : Steps s .stop { s with running := false }
  /-- A worker that has nothing left to handle is told of events. -/
  | reported {i : ι} {events : List Event} (hi : s.worker i = .waiting)
      (hruns : s.running = true) (hreports : s.Reports events) :
      Steps s (.wait i events) (s.setPc i (.dispatch events))
  /-- A worker goes on without a call, and with nothing new to handle. -/
  | goes {a : Action ι} {i : ι} {pc₀ pc : Pc} (hstop : a ≠ .stop) (hadd : ∀ j, a ≠ .add j true)
      (hi : s.worker i = pc₀) (hclients : pc.clients.Sublist pc₀.clients)
      (hfresh : pc.fresh = pc₀.fresh) (hcloses : pc₀.closes = none) : Steps s a (s.setPc i pc)
  | received {i : ι} {e : Client} {events : List Event} {answer : RecvAnswer}
      (hi : s.worker i = .receiving e events) (hruns : s.running = true) :
      Steps s (.recv i answer)
        ((s.record i e (.recv answer)).setPc i (afterRecv e events answer))
  | closed {i : ι} {e : Client} {events : List Event} (hi : s.worker i = .closing e events) :
      Steps s (.close i) ((s.closeFd i e).setPc i (.dispatch events))
  | accepted {i : ι} {fd : ℕ} {events : List Event} (hi : s.worker i = .accepting events)
      (hruns : s.running = true) (hfree : s.table fd = none) :
      Steps s (.accept i (some fd)) ((s.acceptFd fd).setPc i (.adding ⟨fd, s.accepted⟩ events))
  | added {i : ι} {e : Client} {events : List Event} (hi : s.worker i = .adding e events)
      (hopen : s.table e.fd ≠ none) :
      Steps s (.add i true) ((s.addFd e).setPc i (.accepting events))
  | dropped {i : ι} {e : Client} {events : List Event} (hi : s.worker i = .dropping e events) :
      Steps s (.drop i) ((s.closeFd i e).setPc i (.accepting events))

lemma steps_of_step {a : Action ι} (h : s.step a = some s') : s.Steps a s' := by
  cases a with
  | stop =>
    cases h
    exact .stopped
  | wait i events =>
    simp only [step] at h
    split at h <;> rename_i hi
    · split_ifs at h with hruns hreports
      · cases h
        exact .reported hi hruns hreports
      · cases h
        exact .goes nofun nofun hi (List.Sublist.refl _) rfl rfl
    · cases h
  | next i =>
    simp only [step] at h
    split at h <;> rename_i hi
    · cases h
      exact .goes nofun nofun hi (List.Sublist.refl _) rfl rfl
    · split_ifs at h with hruns
      · split at h
        · cases h
          exact .goes nofun nofun hi (List.Sublist.refl _) rfl rfl
        · cases h
          exact .goes nofun nofun hi (List.Sublist.refl _) rfl rfl
      · cases h
        exact .goes nofun nofun hi (List.nil_sublist _) rfl rfl
    · cases h
  | recv i answer =>
    simp only [step] at h
    split at h <;> rename_i hi
    · split_ifs at h with hruns hpossible
      · cases h
        exact .received hi hruns
      · cases h
        exact .goes nofun nofun hi (List.sublist_cons_self _ _) rfl rfl
    · cases h
  | close i =>
    simp only [step] at h
    split at h <;> rename_i hi
    · cases h
      exact .closed hi
    · cases h
  | accept i fd =>
    simp only [step] at h
    split at h <;> rename_i hi
    · split_ifs at h with hruns
      · cases fd with
        | none =>
          cases h
          exact .goes nofun nofun hi (List.Sublist.refl _) rfl rfl
        | some fd =>
          obtain ⟨hfree, h⟩ := Option.ite_none_right_eq_some.mp h
          cases h
          exact .accepted hi hruns hfree
      · cases h
        exact .goes nofun nofun hi (List.Sublist.refl _) rfl rfl
    · cases h
  | add i ok =>
    simp only [step] at h
    split at h <;> rename_i hi
    · cases ok with
      | true =>
        obtain ⟨hpossible, h⟩ := Option.ite_none_left_eq_some.mp h
        cases h
        exact .added hi (not_or.mp hpossible).1
      | false =>
        cases h
        exact .goes nofun nofun hi (List.Sublist.refl _) rfl rfl
    · cases h
  | drop i =>
    simp only [step] at h
    split at h <;> rename_i hi
    · cases h
      exact .dropped hi
    · cases h

/-! ## One step -/

lemma Inv.recv (hs : Inv s) {answer : RecvAnswer} (hi : s.worker i = .receiving e events) :
    Inv ((s.record i e (.recv answer)).setPc i (afterRecv e events answer)) := by
  have he : e ∈ (s.worker i).clients := by
    rw [hi]
    exact List.mem_cons_self
  refine ⟨?_, (hs.table.recv (hs.workers.clients i e he).1).setPc, ?_, ?_⟩
  · refine hs.workers.mono (clients_update hi ?_) (fresh_update ?_) fun _ _ _ => ⟨rfl, rfl⟩
    · cases answer with
      | again => exact List.sublist_cons_self _ _
      | data | ended | failed => exact List.Sublist.refl _
    · intro e' he'
      cases answer <;> cases he'
  · refine hs.watched.goes rfl (fun _ => .inl) (fun _ _ hset => hset) fun e' he' => ?_
    rw [hi] at he'
    cases he'
  · refine hs.tornDown.goes rfl (fun op hop hends => ?_)
      (fun conn => (closes_record_recv conn).trans) fun e' he' => ?_
    · rcases List.mem_append.mp hop with hold | hnew
      · exact .inl hold
      · rw [List.mem_singleton.mp hnew] at hends ⊢
        cases answer with
        | data | again => cases hends
        | ended | failed => exact .inr ⟨rfl, e, rfl, rfl⟩
    · rw [hi] at he'
      cases he'

lemma Inv.close (hs : Inv s) (hi : s.worker i = .closing e events)
    (hlast : s.LastEvent (.close i)) :
    Inv ((s.closeFd i e).setPc i (.dispatch events)) := by
  have he : e ∈ (s.worker i).clients := by
    rw [hi]
    exact List.mem_cons_self
  have htable := (hs.workers.clients i e he).1
  refine ⟨hs.workers.closed hi (List.sublist_cons_self _ _) rfl ?_,
    (hs.table.closeFd htable).setPc, hs.watched.closeFd (by rw [hi]; exact nofun),
    hs.tornDown_closeFd htable (by rw [hi]; exact fun e' he' => (Option.some_inj.mp he').symm)⟩
  have hconn : ∀ {k e'}, e' ∈ (s.worker k).clients → e'.fd = e.fd → e'.conn = e.conn := by
    intro k e' hk hfd
    have htable' := (hs.workers.clients k e' hk).1
    rw [hfd, htable, Option.some_inj] at htable'
    exact htable'.symm
  have hnodup := hs.workers.nodup i
  rw [hi] at hnodup
  intro j e' he'
  rcases he' with he' | he'
  · refine forall_update s (P := fun _ q => ∀ e' ∈ q.clients, e'.fd ≠ e.fd) ?_ ?_ j e' he'
    · intro e' he' hfd
      have hmem : e' ∈ (s.worker i).clients := by
        rw [hi]
        exact List.mem_cons_of_mem _ he'
      have heq : e' = e := Client.ext hfd (hconn hmem hfd)
      exact (List.nodup_cons.mp hnodup).1 (heq ▸ he')
    · intro k hk e' he' hfd
      exact hlast e (by rw [hi]; exact rfl) k hk e' he' (hconn he' hfd)
  · have hold := fresh_update (fun e' he' => by cases he') j e' he'
    exact (hs.workers.fd_ne he hold).symm

lemma Inv.drop (hs : Inv s) (hi : s.worker i = .dropping e events) :
    Inv ((s.closeFd i e).setPc i (.accepting events)) := by
  have he : e ∈ (s.worker i).fresh := by
    rw [hi]
    exact rfl
  have htable := (hs.workers.fresh i e he).1
  exact ⟨hs.workers.closed hi (List.Sublist.refl _) rfl
      (hs.workers.fd_ne_of_done hi rfl (List.Sublist.refl _) rfl),
    (hs.table.closeFd htable).setPc,
    hs.watched.closeFd (by rw [hi]; exact fun e' he' => (Option.some_inj.mp he').symm),
    hs.tornDown_closeFd htable (by rw [hi]; exact nofun)⟩

lemma Inv.acceptFd (hs : Inv s) {fd : ℕ} (hfree : s.table fd = none)
    (hi : s.worker i = .accepting events) :
    Inv ((s.acceptFd fd).setPc i (.adding ⟨fd, s.accepted⟩ events)) := by
  refine ⟨hs.accepted hfree hi, (hs.table.acceptFd hfree).setPc, ?_, ?_⟩
  · refine hs.watched.goes rfl (fun e he => ?_) (fun _ _ hset => hset) fun e he => ?_
    · rcases (table_acceptFd hfree).mp he with ⟨hfd, hconn⟩ | hold
      · have heq : e = ⟨fd, s.accepted⟩ := Client.ext hfd hconn.symm
        rw [heq]
        exact .inr rfl
      · exact .inl hold
    · rw [hi] at he
      cases he
  · refine hs.tornDown.goes rfl (fun _ hop _ => .inl hop) (fun _ h => h) fun e he => ?_
    rw [hi] at he
    cases he

lemma Inv.addFd (hs : Inv s) (hi : s.worker i = .adding e events) (hopen : s.table e.fd ≠ none) :
    Inv ((s.addFd e).setPc i (.accepting events)) := by
  refine ⟨hs.workers.added hi, (hs.table.addFd hopen).setPc, ?_, ?_⟩
  · refine hs.watched.goes rfl (fun _ => .inl) (fun e' _ hset => ?_) fun e' he' _ => ?_
    · show Function.update s.registered e.fd true e'.fd = true
      rw [Function.update_apply, hset, ite_self]
    · rw [hi] at he'
      rw [← Option.some_inj.mp he']
      exact .inl (Function.update_self _ _ _)
  · refine hs.tornDown.goes rfl (fun _ hop _ => .inl hop) (fun _ h => h) fun e' he' => ?_
    rw [hi] at he'
    cases he'

/-- A worker that goes on without a call. -/
lemma Inv.setPc (hs : Inv s) {pc₀ : Pc} (hi : s.worker i = pc₀)
    (hclients : pc.clients.Sublist pc₀.clients) (hfresh : pc.fresh = pc₀.fresh)
    (hcloses : pc₀.closes = none) : Inv (s.setPc i pc) := by
  subst hi
  exact ⟨hs.workers.setPc hclients (by rw [hfresh]; exact fun _ he => he), hs.table.setPc,
    hs.watched.setPc hfresh, hs.tornDown.setPc hcloses⟩

/-- A worker that has nothing left to handle is told of events. -/
lemma Inv.reported (hs : Inv s) (hi : s.worker i = .waiting) (hreports : s.Reports events) :
    Inv (s.setPc i (.dispatch events)) := by
  have hfresh : (s.worker i).fresh = none := by rw [hi]; rfl
  have hcloses : (s.worker i).closes = none := by rw [hi]; rfl
  exact ⟨hs.workers.reported hreports, hs.table.setPc, hs.watched.setPc hfresh.symm,
    hs.tornDown.setPc hcloses⟩

/-- What one step keeps, if no worker closes what another one still has to handle. -/
lemma preserves_inv : Preserves (step (ι := ι)) LastEvent Inv := by
  intro s a s' hs hlast h
  cases steps_of_step h with
  | stopped =>
    exact ⟨⟨hs.workers.clients, hs.workers.nodup, hs.workers.fresh, hs.workers.fresh_inj⟩,
      ⟨hs.table.registered, hs.table.inj, hs.table.lt, hs.table.own, hs.table.not_closed,
        hs.table.closed_once⟩, hs.watched, hs.tornDown⟩
  | reported hi hruns hreports => exact hs.reported hi hreports
  | goes hstop hadd hi hclients hfresh hcloses => exact hs.setPc hi hclients hfresh hcloses
  | received hi hruns => exact hs.recv hi
  | closed hi => exact hs.close hi hlast
  | accepted hi hruns hfree => exact hs.acceptFd hfree hi
  | added hi hopen => exact hs.addFd hi hopen
  | dropped hi => exact hs.drop hi

/-! ## Stopping -/

/-- A worker goes on, and what it was busy with is closed, or it still is. -/
lemma Settled.goes (hs : s.Settled) (hworker : s'.worker = Function.update s.worker i pc)
    (haccepted : s'.accepted = s.accepted)
    (hcloses : ∀ conn, s'.closes conn = 0 → s.closes conn = 0)
    (hpc : ∀ e ∈ (s.worker i).busyWith, s'.closes e.conn = 0 → e ∈ pc.busyWith) : s'.Settled := by
  intro conn hlt hopen
  obtain ⟨j, e, he, rfl⟩ := hs conn (haccepted ▸ hlt) (hcloses conn hopen)
  refine ⟨j, e, ?_, rfl⟩
  rw [hworker]
  by_cases hji : j = i
  · subst hji
    rw [Function.update_self]
    exact hpc e he hopen
  · rw [Function.update_of_ne hji]
    exact he

lemma Settled.setPc (hs : s.Settled) (hpc : ∀ e ∈ (s.worker i).busyWith, e ∈ pc.busyWith) :
    (s.setPc i pc).Settled :=
  hs.goes rfl rfl (fun _ h => h) fun e he _ => hpc e he

lemma Settled.closeFd (hs : s.Settled) (htable : TableOwn s) (he : s.table e.fd = some e.conn)
    (hpc : ∀ e' ∈ (s.worker i).busyWith, e' = e) : ((s.closeFd i e).setPc i pc).Settled := by
  have hlog (conn : ℕ) :
      ((s.closeFd i e).setPc i pc).closes conn = (s.closeFd i e).closes conn := rfl
  refine hs.goes rfl rfl (fun conn h => ?_) fun e' he' h => ?_
  · rw [hlog, closes_closeFd he] at h
    exact (Nat.add_eq_zero_iff.mp h).1
  · rw [hpc e' he', hlog, htable.closes_closeFd_self he] at h
    cases h

/-- A connection that is registered is left to events. -/
lemma Inv.not_settled_addFd (hs : Inv s) (hi : s.worker i = .adding e events) :
    ¬ ((s.addFd e).setPc i (.accepting events)).Settled := by
  intro hsettled
  have hfresh : e ∈ (s.worker i).fresh := by
    rw [hi]
    exact rfl
  have htable := (hs.workers.fresh i e hfresh).1
  obtain ⟨j, e', he', hconn⟩ := hsettled e.conn (hs.table.lt _ _ htable)
    (hs.table.not_closed _ (.inl ⟨_, htable⟩))
  have hsame (h : s.table e'.fd = some e'.conn) : e'.fd = e.fd :=
    hs.table.inj _ _ _ (hconn ▸ h) htable
  have he'' : e' ∈ ((Function.update s.worker i (.accepting events)) j).busyWith := he'
  by_cases hji : j = i
  · rw [hji, Function.update_self] at he''
    cases he''
  · rw [Function.update_of_ne hji] at he''
    rcases Pc.mem_of_busyWith he'' with hclient | hother
    · exact hs.workers.fd_ne hclient hfresh (hsame (hs.workers.clients j e' hclient).1)
    · exact hji (hs.workers.eq_of_fresh_fd hother hfresh (hsame (hs.workers.fresh j e' hother).1))

lemma running_of_steps {a : Action ι} (ha : a ≠ .stop) (h : s.Steps a s') :
    s'.running = s.running := by
  cases h with
  | stopped => exact absurd rfl ha
  | reported | goes | received | closed | accepted | added | dropped => rfl

/-- A server that was told to stop stays settled, if nothing is registered. -/
lemma Inv.settled_steps (hs : Inv s) (hstopped : s.running = false) (hsettled : s.Settled)
    {a : Action ι} (ha : ∀ i, a ≠ .add i true) (h : s.Steps a s') : s'.Settled := by
  have hnot : ¬ s.running = true := ne_true_of_eq_false hstopped
  cases h with
  | stopped => exact hsettled
  | reported hi hruns => exact absurd hruns hnot
  | goes hstop hadd hi hclients hfresh hcloses =>
    refine hsettled.setPc fun e he => Pc.busyWith_of_fresh ?_
    rw [hi] at he
    rw [hfresh]
    exact Pc.fresh_of_busyWith hcloses he
  | received hi hruns => exact absurd hruns hnot
  | closed hi =>
    refine hsettled.closeFd hs.table (hs.workers.clients _ _ (by rw [hi]; exact
      List.mem_cons_self)).1 fun e' he' => ?_
    rw [hi] at he'
    exact (Option.some_inj.mp he').symm
  | accepted hi hruns => exact absurd hruns hnot
  | added => exact absurd rfl (ha _)
  | dropped hi =>
    refine hsettled.closeFd hs.table (hs.workers.fresh _ _ (by rw [hi]; exact rfl)).1
      fun e' he' => ?_
    rw [hi] at he'
    exact (Option.some_inj.mp he').symm

/-- A step leaves a connection to events that nobody will wait for exactly where the server is told
to stop too early, or registers one too late. -/
lemma Inv.closesAll_steps (hs : Inv s) (hs' : Inv s') {a : Action ι} (h : s.Steps a s')
    (hcloses : s.ClosesAll) : s'.ClosesAll ↔ s.StopsIdle a := by
  rw [hs'.closesAll_iff]
  cases hrunning : s.running with
  | true =>
    by_cases ha : a = .stop
    · subst ha
      cases h with
      | stopped => exact ⟨fun hsettled => hsettled rfl, fun hsettled _ => hsettled⟩
      | goes hstop => exact absurd rfl hstop
    · refine iff_of_true (fun hstopped => ?_) (stopsIdle_of_running ha hrunning)
      rw [running_of_steps ha h, hrunning] at hstopped
      cases hstopped
  | false =>
    have hsettled := hcloses.settled hrunning
    by_cases ha : ∃ i, a = .add i true
    · obtain ⟨i, rfl⟩ := ha
      refine iff_of_false (fun hall => ?_) fun hruns => ?_
      · have hadd : Action.add i true ≠ .stop := nofun
        have hnot := hall ((running_of_steps hadd h).trans hrunning)
        cases h with
        | goes hstop hadd => exact absurd rfl (hadd i)
        | added hi => exact hs.not_settled_addFd hi hnot
      · rw [show s.running = true from hruns] at hrunning
        cases hrunning
    · have ha := not_exists.mp ha
      exact iff_of_true (fun _ => hs.settled_steps hrunning hsettled ha h)
        (stopsIdle_of_settled ha hsettled)

end Workers

/-! ## Runs -/

lemma workersOwn_new : WorkersOwn (new : EpollServer ι) where
  clients := fun _ _ he => absurd he List.not_mem_nil
  nodup := fun _ => List.nodup_nil
  fresh := fun _ _ he => absurd he (Option.not_mem_none _)
  fresh_inj := fun _ _ _ he => absurd he (Option.not_mem_none _)

lemma tableOwn_new : TableOwn (new : EpollServer ι) where
  registered := fun _ _ => rfl
  inj := fun _ _ _ h => absurd h (Option.some_ne_none _).symm
  lt := fun _ _ h => absurd h (Option.some_ne_none _).symm
  own := fun _ hop => absurd hop List.not_mem_nil
  not_closed := fun _ _ => rfl
  closed_once := fun _ h => absurd h (Nat.not_lt_zero _)

lemma inv_new : Inv (new : EpollServer ι) where
  workers := workersOwn_new
  table := tableOwn_new
  watched := fun _ h => absurd h (Option.some_ne_none _).symm
  tornDown := fun _ hop => absurd hop List.not_mem_nil

lemma closesAll_new : (new : EpollServer ι).ClosesAll where
  settled := fun h => by cases h
  closed := fun h => by cases h

/-- **Workers that keep to their own connections.**  For any number of workers, in every run in
which a worker closes a connection only when no other one has an event of it left: every `recv`
and every `close` is on the connection that the worker handles, every accepted connection is open
and watched or was closed once, and whoever reads the end of one closes it.  And `stop` leaves no
connection open exactly if it finds open only what a worker is about to close or to register, and
none of these is registered behind it. -/
theorem throughout_ownOnly [DecidableEq ι] (as : List (Action ι))
    (hlast : Along step LastEvent new as) :
    Throughout step OwnOnly (new : EpollServer ι) as ∧
      (Throughout step ClosesAll (new : EpollServer ι) as ↔ Along step StopsIdle new as) :=
  ⟨preserves_inv.throughout (fun _ hs => hs.ownOnly) inv_new hlast,
    preserves_inv.throughout_iff_along (fun s a s' hs ha h hcloses =>
      hs.closesAll_steps (preserves_inv s a s' hs ha h) (steps_of_step h) hcloses) inv_new
      closesAll_new hlast⟩

/-- A connection that the first worker accepts and the second one handles, while the first accepts
another one.  Both have been closed, or nearly, when the server is told to stop. -/
theorem throughout_ownOnly_served :
    let as : List (Action Bool) :=
      [.wait true [none], .next true, .accept true (some 5), .add true true,
        .wait false [some ⟨5, 0⟩], .next false, .recv false .data, .accept true (some 6),
        .add true true, .recv false .ended, .close false, .accept true none, .next true,
        .wait true [some ⟨6, 1⟩], .next true, .next false, .recv true .failed, .stop, .close true,
        .next true, .wait true [], .wait false []]
    Throughout step OwnOnly (new : EpollServer Bool) as ∧
      Throughout step ClosesAll (new : EpollServer Bool) as := by
  intro as
  obtain ⟨hown, hcloses⟩ := throughout_ownOnly as (by decide)
  exact ⟨hown, hcloses.mpr (by decide)⟩

/-- One connection that the first worker accepts and that both have an event of.  The first reads
its end and closes it, and accepts the next one under the same number; the second reads this one
and closes it. -/
def stolen : List (Action Bool) :=
  [.wait true [none], .next true, .accept true (some 5), .add true true, .accept true none,
    .next true, .wait true [some ⟨5, 0⟩], .wait false [some ⟨5, 0⟩], .next true, .recv true .data,
    .recv true .ended, .close true, .next true, .wait true [none], .next true,
    .accept true (some 5), .add true true, .next false, .recv false .ended, .close false]

theorem not_ownOnly_stolen : ¬ Throughout step OwnOnly (new : EpollServer Bool) stolen := by
  intro hall
  have hown := hall.imp fun _ hs => hs.own
  exact absurd hown (by decide)

end ClientServer.Simpleepoll.EpollServer
