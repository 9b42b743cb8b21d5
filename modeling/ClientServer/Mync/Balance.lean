import ClientServer.Library.LeastLoad
import ClientServer.Mync.Ownership

/-!
# How accepted connections are spread

`balance_socket` scans the counters of the workers for the least one and pushes the connection
there, which adds one to that counter in the critical section of the push; the worker takes the
connection over later, which leaves the counter as it is.  So in a run in which connections are
only accepted and taken over, a counter changes only when it is a least one.
-/

namespace ClientServer.Mync

/-! ## The runs -/

namespace Server

variable {n : ℕ}

/-- The reports handled are of connections to be accepted, on the main thread, and of wakeups, on
the workers; there is no stop signal. -/
def OnlyAccepts (s : Server n) : ServerAct n → Prop
  | .signal => False
  | .wait _ _ => True
  | .run t _ => ∀ r ∈ (s.threads t).pc.report?,
      (s.threads t).epoll.dispatch r = if t = none then .socketData else .wakeup

instance (s : Server n) : DecidablePred s.OnlyAccepts := fun
  | .signal => inferInstanceAs (Decidable False)
  | .wait _ _ => inferInstanceAs (Decidable True)
  | .run t _ => inferInstanceAs (Decidable (∀ r ∈ (s.threads t).pc.report?,
      (s.threads t).epoll.dispatch r = _))

/-- The counters of any two workers differ by one at most, and when the main thread is not about
to place a connection they sum up to the number of connections accepted. -/
def Balanced (s : Server n) : Prop :=
  WithinOne s.countClients ∧
    ((s.threads none).pc.hand = 0 → ∑ w, s.countClients w = s.accepted)

end Server

/-! ## One thread -/

/-- The points of the program that a thread passes in such a run. -/
def Pc.spreads {n : ℕ} (main : Bool) : Pc n → Bool
  | .loopHead => true
  | .waiting => true
  | .events _ => true
  | .draining _ => !main
  | .accepting _ => main
  | .choosing .. => main
  | .pushing .. => main
  | .waking .. => main
  | _ => false

/-- The scan for the least counter is right so far. -/
def Pc.Scans {n : ℕ} (load : Fin n → ℤ) : Pc n → Prop
  | .choosing _ _ best k _ => LeastBelow load best k
  | .pushing _ _ w _ => ∀ j, load w ≤ load j
  | _ => True

namespace Thread

variable {n : ℕ} {t t' : Thread n} {main : Bool} {i : Input} {calls : List Call}
  {load : Fin n → ℤ}

/-- The thread is at one of these points, and nothing has told it to stop. -/
structure Spreads (main : Bool) (t : Thread n) : Prop where
  pc : t.pc.spreads main = true
  listens : t.epoll.isListen = main
  stdin : t.epoll.stdinClosed = false
  socket : t.epoll.socketClosed = false

/-- What such a step keeps: the counter, the connection in hand, and the state of the scan. -/
structure KeepsSpread (main : Bool) (load : Fin n → ℤ) (t t' : Thread n) : Prop where
  spreads : t'.Spreads main
  size : t'.epoll.sizeClients = t.epoll.sizeClients
  hand : t'.pc.hand = t.pc.hand
  scans : t.pc.Scans load → t'.pc.Scans load

/-- A move that keeps what the thread has in hand and the state of its scan. -/
lemma Spreads.move (ht : t.Spreads main) {pc : Pc n} (hpc : pc.spreads main = true)
    (hhand : pc.hand = t.pc.hand) (hscans : t.pc.Scans load → pc.Scans load) :
    KeepsSpread main load t { t with pc := pc } :=
  ⟨⟨hpc, ht.listens, ht.stdin, ht.socket⟩, rfl, hhand, hscans⟩

lemma Goes.keepsSpread {pc : Pc n} (h : t.Goes false pc) (ht : t.Spreads main)
    (hreport : ∀ r ∈ t.pc.report?,
      t.epoll.dispatch r = if main then .socketData else .wakeup) :
    KeepsSpread main load t { t with pc := pc } := by
  have hpc := ht.pc
  cases h with
  | stays => exact ⟨ht, rfl, rfl, fun hscan => hscan⟩
  | ends _ hend =>
    rw [ht.stdin, ht.socket] at hend
    simp at hend
  | loops h | again h =>
    exact ht.move rfl (by rw [h]; rfl) fun _ => trivial
  | locks h hwakeup =>
    have hd := hreport _ (by rw [h]; rfl)
    rw [hwakeup] at hd
    cases main with
    | true => cases hd
    | false => exact ht.move rfl (by rw [h]; rfl) fun _ => trivial
  | unlocks h _ => exact ht.move rfl (by rw [h]; rfl) fun _ => trivial
  | woken h =>
    refine ht.move ?_ (by rw [h]; rfl) fun _ => trivial
    rw [h] at hpc
    exact hpc
  | counts h | prints h =>
    rw [h] at hpc
    cases hpc

/-- A thread that goes on by itself leaves its counter as it is. -/
lemma Advances.keepsSpread (h : t.Advances false i t' calls) (ht : t.Spreads main)
    (hreport : ∀ r ∈ t.pc.report?,
      t.epoll.dispatch r = if main then .socketData else .wakeup) :
    KeepsSpread main load t t' := by
  have hpc := ht.pc
  cases h with
  | goes h => exact h.keepsSpread ht hreport
  | @handles r rest e calls h hwakeup hhandled =>
    have hd := hreport r (by rw [h]; rfl)
    cases main with
    | false => exact absurd hd hwakeup
    | true =>
      simp only [if_true] at hd
      have hafter : (Pc.after t.epoll r i.toAnswers rest : Pc n) = .accepting rest := by
        unfold Pc.after
        rw [hd]
        exact if_pos ht.listens
      have hsame : e = t.epoll := by
        cases hhandled with
        | same => rfl
        | flags _ hends =>
          rw [hd, ht.listens] at hends
          simp at hends
        | ticked _ hother | drained hother | counted _ _ hother | hungUp hother
        | emptied _ hother =>
          rw [hd] at hother
          cases hother
      rw [hafter, hsame]
      exact ht.move rfl (by rw [h]; rfl) fun _ => trivial
  | drains h hqueue => exact ⟨⟨hpc, ht.listens, ht.stdin, ht.socket⟩, rfl, rfl, fun hscan => hscan⟩
  | adopts h | stops h =>
    rw [h] at hpc
    cases hpc

end Thread

/-! ## The process -/

namespace Server

variable {n : ℕ} {s s' : Server n} {t : Agent n}

/-- The invariant of such a run. -/
structure Spreading (s : Server n) : Prop where
  runs : s.shouldStop = false
  threads : ∀ t, (s.threads t).Spreads t.isNone
  within : WithinOne s.countClients
  scans : (s.threads none).pc.Scans s.countClients
  total : ∑ w, s.countClients w + (s.threads none).pc.hand.card = s.accepted

lemma Spreading.balanced (h : s.Spreading) : s.Balanced := by
  refine ⟨h.within, fun hhand => ?_⟩
  have htotal := h.total
  rw [hhand, Multiset.card_zero, Nat.cast_zero, add_zero] at htotal
  exact htotal

/-- Only the main thread is in the accept loop. -/
lemma Spreading.eq_none (h : s.Spreading) (hpc : (s.threads t).pc.spreads false = false) :
    t = none := by
  cases t with
  | none => rfl
  | some w => exact absurd (h.threads (some w)).pc (by simp [hpc])

lemma countClients_update {t' : Thread n}
    (hthreads : s'.threads = Function.update s.threads t t')
    (hsize : t'.epoll.sizeClients = (s.threads t).epoll.sizeClients) :
    s'.countClients = s.countClients := by
  funext w
  unfold countClients
  rw [hthreads]
  by_cases hw : some w = t
  · subst hw
    rw [Function.update_self]
    exact hsize
  · rw [Function.update_of_ne hw]

lemma Spreading.spreads_update (h : s.Spreading) {t' : Thread n} (ht' : t'.Spreads t.isNone) :
    ∀ a, (Function.update s.threads t t' a).Spreads a.isNone :=
  (Function.forall_update_iff s.threads fun a => Thread.Spreads a.isNone).mpr
    ⟨ht', fun a _ => h.threads a⟩

/-- A step of thread `t` that keeps its counter and what it has in hand. -/
lemma Spreading.update (h : s.Spreading) {t' : Thread n}
    (hkeeps : Thread.KeepsSpread t.isNone s.countClients (s.threads t) t')
    (hthreads : s'.threads = Function.update s.threads t t')
    (hstop : s'.shouldStop = s.shouldStop) (haccepted : s'.accepted = s.accepted) :
    s'.Spreading := by
  have hcount : s'.countClients = s.countClients :=
    countClients_update hthreads hkeeps.size
  have hmain : (s'.threads none).pc.hand = (s.threads none).pc.hand ∧
      (s'.threads none).pc.Scans s.countClients := by
    rw [hthreads]
    by_cases ht : none = t
    · subst ht
      rw [Function.update_self]
      exact ⟨hkeeps.hand, hkeeps.scans h.scans⟩
    · rw [Function.update_of_ne ht]
      exact ⟨rfl, h.scans⟩
  refine ⟨hstop.trans h.runs, fun a => ?_, ?_, ?_, ?_⟩
  · rw [hthreads]
    exact h.spreads_update hkeeps.spreads a
  · rw [hcount]
    exact h.within
  · rw [hcount]
    exact hmain.2
  · rw [hcount, haccepted, hmain.1]
    exact h.total

/-- The main thread has accepted a connection and begins the scan with the first worker. -/
lemma Spreading.accept {s s' : Server (n + 1)} (h : s.Spreading) {fd : Fd} {st : Stats}
    {rest : List Report} (hpc : (s.threads none).pc = .accepting rest)
    (hthreads : s'.threads = (s.goto none (place fd st rest)).threads)
    (hstop : s'.shouldStop = s.shouldStop) (haccepted : s'.accepted = s.accepted + 1) :
    s'.Spreading := by
  have hplace : (place fd st rest : Pc (n + 1)) = .choosing fd st ⟨0, Nat.succ_pos n⟩ 1 rest :=
    dif_pos (Nat.succ_pos n)
  have hmain := h.threads none
  have hcount : s'.countClients = s.countClients :=
    countClients_update hthreads rfl
  have hnone : (s'.threads none).pc = .choosing fd st ⟨0, Nat.succ_pos n⟩ 1 rest := by
    rw [hthreads, ← hplace, pc_goto_self]
  refine ⟨hstop.trans h.runs, fun a => ?_, ?_, ?_, ?_⟩
  · have hspreads : ({ s.threads none with pc := .choosing fd st ⟨0, Nat.succ_pos n⟩ 1 rest } :
        Thread (n + 1)).Spreads (none : Agent (n + 1)).isNone :=
      ⟨rfl, hmain.listens, hmain.stdin, hmain.socket⟩
    rw [hthreads, hplace]
    exact h.spreads_update hspreads a
  · rw [hcount]
    exact h.within
  · rw [hnone]
    exact leastBelow_one (Nat.succ_pos n)
  · have htotal := h.total
    rw [hpc] at htotal
    rw [hcount, hnone, haccepted]
    show _ + ((1 : ℕ) : ℤ) = _
    have hzero : (Pc.accepting rest : Pc (n + 1)).hand.card = 0 := rfl
    rw [hzero] at htotal
    push_cast at htotal ⊢
    omega

/-- The push adds one to a least counter. -/
lemma Spreading.push (h : s.Spreading) {fd : Fd} {st : Stats} {w : Fin n} {rest : List Report}
    (hpc : (s.threads none).pc = .pushing fd st w rest) :
    ((s.goto none (.waking w rest)).push w fd st).Spreading := by
  have hmain := h.threads none
  have hleast : ∀ v, s.countClients w ≤ s.countClients v := by
    have hscans := h.scans
    rw [hpc] at hscans
    exact hscans
  have hmid (v : Fin n) : (s.goto none (.waking w rest)).threads (some v) = s.threads (some v) :=
    s.threads_goto_of_ne _ (Option.some_ne_none v)
  have hcount : ((s.goto none (.waking w rest)).push w fd st).countClients =
      Function.update s.countClients w (s.countClients w + 1) := by
    funext v
    show (((s.goto none (.waking w rest)).push w fd st).threads (some v)).epoll.sizeClients = _
    by_cases hv : v = w
    · subst hv
      rw [threads_push_self, hmid, Function.update_self]
      rfl
    · rw [threads_push_of_ne _ _ _ (by simpa using hv), hmid, Function.update_of_ne hv]
      rfl
  have hnone :
      (((s.goto none (.waking w rest)).push w fd st).threads none).pc = .waking w rest := by
    rw [threads_push_of_ne _ _ _ (Option.some_ne_none w).symm, pc_goto_self]
  refine ⟨h.runs, fun a => ?_, ?_, ?_, ?_⟩
  · have hwaking : ({ s.threads none with pc := .waking w rest } : Thread n).Spreads
        (none : Agent n).isNone := ⟨rfl, hmain.listens, hmain.stdin, hmain.socket⟩
    by_cases ha : a = some w
    · subst ha
      have hw := h.threads (some w)
      rw [threads_push_self, hmid]
      exact ⟨hw.pc, hw.listens, hw.stdin, hw.socket⟩
    · rw [threads_push_of_ne _ _ _ ha]
      exact h.spreads_update hwaking a
  · rw [hcount]
    exact h.within.add_least hleast
  · rw [hnone]
    trivial
  · have htotal := h.total
    have hone : (Pc.pushing fd st w rest : Pc n).hand.card = 1 := Multiset.card_singleton fd
    rw [hpc, hone] at htotal
    have hsum := sum_update_add s.countClients w (s.countClients w + 1)
    rw [hcount, hnone]
    show _ + ((0 : ℕ) : ℤ) = (s.accepted : ℤ)
    push_cast at htotal ⊢
    omega

/-- The step lemma. -/
lemma Spreading.steps {s s' : Server (n + 1)} (h : s.Spreading) {a : ServerAct (n + 1)}
    {calls : List Call} (honly : s.OnlyAccepts a) (hsteps : s.Steps a s' calls) :
    s'.Spreading := by
  cases hsteps with
  | signal => exact honly.elim
  | abort => exact ⟨h.runs, h.threads, h.within, h.scans, h.total⟩
  | @wait t batch hreturns =>
    have hkeeps : Thread.KeepsSpread t.isNone s.countClients (s.threads t)
        { s.threads t with pc := .events batch } :=
      (h.threads t).move rfl (by rw [hreturns.1]; rfl) fun _ => trivial
    exact h.update hkeeps rfl rfl rfl
  | @accept t i fd ip now rest hpc haccept hfree =>
    obtain rfl := h.eq_none (by rw [hpc]; rfl)
    exact h.accept hpc rfl rfl rfl
  | @acceptedAll t i rest hpc =>
    have hkeeps : Thread.KeepsSpread t.isNone s.countClients (s.threads t)
        { s.threads t with pc := .events rest } :=
      (h.threads t).move rfl (by rw [hpc]; rfl) fun _ => trivial
    exact h.update hkeeps rfl rfl rfl
  | @compare t i fd st best k rest hpc hk =>
    obtain rfl := h.eq_none (by rw [hpc]; rfl)
    have hkeeps : Thread.KeepsSpread (none : Agent (n + 1)).isNone s.countClients (s.threads none)
        { s.threads none with
          pc := .choosing fd st
            (if s.countClients ⟨k, hk⟩ < s.countClients best then ⟨k, hk⟩ else best) (k + 1)
            rest } := by
      refine (h.threads none).move rfl (by rw [hpc]; rfl) ?_
      rw [hpc]
      exact fun hscan => hscan.compare hk
    exact h.update hkeeps rfl rfl rfl
  | @choose t i fd st best k rest hpc hk =>
    obtain rfl := h.eq_none (by rw [hpc]; rfl)
    have hkeeps : Thread.KeepsSpread (none : Agent (n + 1)).isNone s.countClients (s.threads none)
        { s.threads none with pc := .pushing fd st best rest } := by
      refine (h.threads none).move rfl (by rw [hpc]; rfl) ?_
      rw [hpc]
      exact fun hscan => hscan.least_all hk
    exact h.update hkeeps rfl rfl rfl
  | @push t i fd st w rest hpc hlocks =>
    obtain rfl := h.eq_none (by rw [hpc]; rfl)
    exact h.push hpc
  | @destroy t i hpc hjoin =>
    have hspreads := (h.threads t).pc
    rw [hpc] at hspreads
    cases hspreads
  | @advance t i t' calls hadv =>
    rw [h.runs] at hadv
    refine h.update (hadv.keepsSpread (h.threads t) fun r hr => ?_) rfl rfl rfl
    rw [honly r hr]
    cases t <;> rfl

lemma preserves_spreading : Preserves next (OnlyAccepts (n := n + 1)) Spreading := by
  intro s a s' h honly hstep
  obtain ⟨calls, hsteps⟩ := steps_of_next hstep
  exact h.steps honly hsteps

lemma spreading_new (setup : Setup n) : (new setup).Spreading where
  runs := rfl
  threads := by
    intro t
    cases t <;> exact ⟨rfl, rfl, rfl, rfl⟩
  within := withinOne_const 0
  scans := trivial
  total := by
    have hcount (w : Fin n) : (new setup).countClients w = 0 := rfl
    simp only [hcount, Finset.sum_const_zero]
    rfl

/-- **Accepted connections are spread evenly.**  Any number of workers from one on, any number of
connections, and any interleaving of the accept loop with the workers' wakeups. -/
theorem balanced_of_onlyAccepts (setup : Setup (n + 1)) (as : List (ServerAct (n + 1)))
    (h : Along next OnlyAccepts (new setup) as) : Throughout next Balanced (new setup) as :=
  preserves_spreading.throughout (fun _ hs => hs.balanced) (spreading_new setup) h

/-- A process with two workers that has the descriptors up to 12 open. -/
def twoWorkers : Setup 2 where
  sock := 3
  epfd := fun t => t.elim 4 fun w => 7 + 3 * w.val
  wakeup := fun t => t.elim 5 fun w => 8 + 3 * w.val
  timer := fun t => t.elim 6 fun w => 9 + 3 * w.val
  opened := {0, 1, 2, 3, 4, 5, 6, 7, 8, 9, 10, 11, 12}
  exclusive := ⟨by decide, by decide⟩

/-- The main thread accepts a connection, compares the two workers and pushes it to one. -/
def acceptTurn (fd : Fd) : List (ServerAct 2) :=
  [.run none (accepting (.accepted fd "" 0)), .run none (accepting .again),
    .run none (accepting .again), .run none (accepting .again), .run none (accepting .again)]

/-- Three connections accepted in one batch; the second worker takes its one over before the third
is pushed. -/
theorem balanced_of_onlyAccepts_three_connections :
    Throughout next Balanced (new twoWorkers)
      ([.run none (accepting .again), .wait none [⟨3, ⟨true, false, false, false⟩⟩],
        .run none (accepting .again)] ++ acceptTurn 13 ++ acceptTurn 14 ++
        [.run (some 1) (accepting .again), .wait (some 1) [⟨11, ⟨true, false, false, false⟩⟩],
          .run (some 1) (accepting .again), .run (some 1) (accepting .again)] ++ acceptTurn 15) :=
  balanced_of_onlyAccepts (n := 1) twoWorkers _ (by decide)

end Server

end ClientServer.Mync
