import ClientServer.TestThreadpool.ThreadPool

/-!
# `test_threadpool/main.cpp`: no lost wake-up, and the shutdown

`step_cases` says once what a step can do: a worker goes on (`Turn`), or `Schedule` or the
destructor does (`Env`).  The results are read off it.

* No wake-up is lost: while all workers sleep there is a notification to come for every handle in
  the queue (`throughout_noneForgotten`).
* Once the destructor has set `mIsDone`, each worker takes at most nine more steps and resumes at
  most one more handle (`work_le`); and unless a worker was between its predicate and its sleep
  when the destructor notified, they all come to their end, so that the destructor gets through
  (`throughout_unblocked`).
* What the destructor destroys are the handles scheduled last, and those before them were all
  resumed (`throughout_takenInOrder`).
-/

namespace ClientServer.TestThreadpool

/-- The steps that a worker has left once `mIsDone` is set, at most. -/
def Pc.left : Pc → ℕ
  | .toSleep => 9
  | .sleeping => 8
  | .locking => 7
  | .evaluating => 6
  | .exitTest => 5
  | .taking => 4
  | .holding _ => 3
  | .running => 2
  | .loopHead => 1
  | .ended => 0

lemma Pc.left_le (pc : Pc) : pc.left ≤ 9 := by
  cases pc <;> simp [left]

lemma Pc.left_wake (pc : Pc) : pc.wake.left ≤ pc.left := by
  cases pc <;> simp [wake, left]

/-- Whether the worker can still come to resume a handle then. -/
def Pc.mayResume (pc : Pc) : ℕ := if 3 ≤ pc.left then 1 else 0

lemma Pc.mayResume_le (pc : Pc) : pc.mayResume ≤ 1 := by
  rw [mayResume]
  split_ifs <;> omega

lemma Pc.mayResume_mono {pc pc' : Pc} (h : pc.left ≤ pc'.left) :
    pc.mayResume ≤ pc'.mayResume := by
  rw [mayResume, mayResume]
  split_ifs <;> omega

lemma Pc.drowsy_cases {pc : Pc} (h : pc.drowsy = true) : pc = .toSleep ∨ pc = .sleeping := by
  cases pc with
  | toSleep => exact .inl rfl
  | sleeping => exact .inr rfl
  | _ => cases h

namespace ThreadPool

variable {ι : Type*}

/-- The worker that takes the step by itself. -/
def Action.worker : Action ι → Option ι
  | .testLoop i | .lock i | .evaluate i | .sleep i | .testExit i | .take i | .resume i
  | .suspend i => some i
  | .push | .notifyOne _ | .setDone | .notifyAll | .join | .destroyRest | .wakeUp _ => none

/-- The steps that a worker takes by itself. -/
def Action.byWorker (a : Action ι) : Bool := a.worker.isSome

/-! ## What a step can do -/

/-- Worker `i` goes on to `pc`. -/
structure Turn [DecidableEq ι] (s s' : ThreadPool ι) (i : ι) (pc : Pc) : Prop where
  worker : s'.worker = Function.update s.worker i pc
  isDone : s'.isDone = s.isDone
  phase : s'.phase = s.phase
  scheduled : s'.scheduled = s.scheduled
  destroyed : s'.destroyed = s.destroyed
  left : s.isDone = true → pc.left < (s.worker i).left
  tasks : s'.tasks = s.tasks ∨ s.worker i = .taking ∧ ∃ h, s.tasks = h :: s'.tasks
  owner : s'.owner = none ∨ s'.owner = some i ∧ pc.locks = true ∨
    s'.owner = s.owner ∧ ((s.worker i).locks = true → pc.locks = true)
  toSleep : pc = .toSleep → s.tasks = [] ∧ s'.tasks = s.tasks
  sleeping : pc = .sleeping → s.worker i = .toSleep ∧ s'.tasks = s.tasks
  ended : pc = .ended → s.isDone = true

/-- `Schedule` or the destructor goes on. -/
inductive Env (s : ThreadPool ι) : Action ι → ThreadPool ι → Prop
  | push (howner : s.owner = none) (hphase : s.phase ≠ .joined ∧ s.phase ≠ .finished) :
    Env s .push
      { s with
        tasks := s.tasks ++ [s.scheduled]
        scheduled := s.scheduled + 1
        notifies := s.notifies + 1 }
  | notifyNone (hnone : ∀ j, s.worker j ≠ .sleeping) :
    Env s (.notifyOne none) { s with notifies := s.notifies - 1 }
  | setDone (hphase : s.phase = .notStarted) :
    Env s .setDone { s with isDone := true, phase := .flagged }
  | notifyAll (hphase : s.phase = .flagged) :
    Env s .notifyAll { s with worker := fun j => (s.worker j).wake, phase := .joining }
  | join (hphase : s.phase = .joining) (hended : ∀ j, s.worker j = .ended) :
    Env s .join { s with phase := .joined }
  | destroyRest (hphase : s.phase = .joined) :
    Env s .destroyRest
      { s with tasks := [], destroyed := s.destroyed ++ s.tasks, phase := .finished }

variable [DecidableEq ι] {s s' : ThreadPool ι} {a : Action ι} {i : ι} {pc : Pc}

/-- A worker that goes on without the mutex. -/
lemma turn_outside {n : ℕ} {resumed : List ℕ} (hpc : pc.drowsy = false)
    (hlocks : (s.worker i).locks = false)
    (hleft : s.isDone = true → pc.left < (s.worker i).left)
    (hended : pc = .ended → s.isDone = true) :
    Turn s (({ s with notifies := n, resumed := resumed } : ThreadPool ι).setPc i pc) i pc where
  worker := rfl
  isDone := rfl
  phase := rfl
  scheduled := rfl
  destroyed := rfl
  left := hleft
  tasks := .inl rfl
  owner := .inr (.inr ⟨rfl, fun h => by rw [hlocks] at h; cases h⟩)
  toSleep := by rintro rfl; cases hpc
  sleeping := by rintro rfl; cases hpc
  ended := hended

/-- A worker that goes on in the critical section, or enters or leaves it. -/
lemma turn_inside {owner : Option ι} (hleft : s.isDone = true → pc.left < (s.worker i).left)
    (howner : owner = none ∨ owner = some i ∧ pc.locks = true)
    (htoSleep : pc = .toSleep → s.tasks = [])
    (hsleeping : pc = .sleeping → s.worker i = .toSleep)
    (hended : pc = .ended → s.isDone = true) :
    Turn s (({ s with owner := owner } : ThreadPool ι).setPc i pc) i pc where
  worker := rfl
  isDone := rfl
  phase := rfl
  scheduled := rfl
  destroyed := rfl
  left := hleft
  tasks := .inl rfl
  owner := howner.imp_right .inl
  toSleep := fun h => ⟨htoSleep h, rfl⟩
  sleeping := fun h => ⟨hsleeping h, rfl⟩
  ended := hended

/-- A worker takes a handle out of the queue. -/
lemma turn_take {h : ℕ} {rest : List ℕ} (hi : s.worker i = .taking) (htasks : s.tasks = h :: rest) :
    Turn s (({ s with tasks := rest, owner := none } : ThreadPool ι).setPc i (.holding h)) i
      (.holding h) where
  worker := rfl
  isDone := rfl
  phase := rfl
  scheduled := rfl
  destroyed := rfl
  left := fun _ => by rw [hi]; exact Nat.lt_succ_self _
  tasks := .inr ⟨hi, h, htasks⟩
  owner := .inl rfl
  toSleep := Pc.noConfusion
  sleeping := Pc.noConfusion
  ended := Pc.noConfusion

variable [Fintype ι]

/-- A step of a worker in the critical section finds it the owner of the mutex. -/
lemma turn_of_locks (hs : Inv s) (hi : (s.worker i).locks = true)
    (hleft : s.isDone = true → pc.left < (s.worker i).left) (hpc : pc.locks = true)
    (htoSleep : pc = .toSleep → s.tasks = []) : Turn s (s.setPc i pc) i pc := by
  have howner := hs.owner i hi
  have hsame : s.setPc i pc = ({ s with owner := some i } : ThreadPool ι).setPc i pc := by
    rw [← howner]
  rw [hsame]
  refine turn_inside hleft (.inr ⟨rfl, hpc⟩) htoSleep ?_ ?_
  · rintro rfl
    cases hpc
  · rintro rfl
    cases hpc

/-- **What a step can do.** -/
lemma step_cases (hs : Inv s) (h : s.step a = some s') :
    (∃ i pc, a.worker.getD i = i ∧ Turn s s' i pc) ∨ Env s a s' := by
  cases a with
  | push =>
    simp only [step] at h
    split_ifs at h with hcan
    cases h
    exact .inr (.push hcan.1 hcan.2)
  | notifyOne target =>
    cases target with
    | none =>
      simp only [step] at h
      split_ifs at h with hzero hnone
      cases h
      exact .inr (.notifyNone hnone)
    | some i =>
      simp only [step] at h
      split_ifs at h with hzero hi
      cases h
      exact .inl ⟨i, _, rfl, turn_outside rfl (by rw [hi]; rfl) (fun _ => by rw [hi]; decide)
        Pc.noConfusion⟩
  | setDone =>
    simp only [step] at h
    split_ifs at h with hphase
    cases h
    exact .inr (.setDone hphase)
  | notifyAll =>
    simp only [step] at h
    split_ifs at h with hphase
    cases h
    exact .inr (.notifyAll hphase)
  | join =>
    simp only [step] at h
    split_ifs at h with hcan
    cases h
    exact .inr (.join hcan.1 hcan.2)
  | destroyRest =>
    simp only [step] at h
    split_ifs at h with hcan
    cases h
    exact .inr (.destroyRest hcan.1)
  | testLoop i =>
    simp only [step] at h
    split_ifs at h with hi hdone
    · cases h
      exact .inl ⟨i, _, rfl, turn_outside rfl (by rw [hi]; rfl) (fun _ => by rw [hi]; decide)
        fun _ => hdone⟩
    · cases h
      exact .inl ⟨i, _, rfl, turn_outside rfl (by rw [hi]; rfl) (fun h => absurd h hdone)
        Pc.noConfusion⟩
  | lock i =>
    simp only [step] at h
    split_ifs at h with hcan
    cases h
    exact .inl ⟨i, _, rfl, turn_inside (fun _ => by rw [hcan.1]; decide) (.inr ⟨rfl, rfl⟩)
      Pc.noConfusion Pc.noConfusion Pc.noConfusion⟩
  | evaluate i =>
    simp only [step] at h
    split at h
    · next hi =>
      cases h
      have hlocks : (s.worker i).locks = true := by rw [hi]; rfl
      split_ifs with hpredicate
      · exact .inl ⟨i, _, rfl, turn_of_locks hs hlocks (fun _ => by rw [hi]; decide) rfl
          Pc.noConfusion⟩
      · rw [Bool.or_eq_true, not_or, Bool.not_eq_true', Bool.not_eq_false,
          List.isEmpty_iff] at hpredicate
        exact .inl ⟨i, _, rfl, turn_of_locks hs hlocks (fun h => absurd h hpredicate.1) rfl
          fun _ => hpredicate.2⟩
    · cases h
  | sleep i =>
    simp only [step] at h
    split_ifs at h with hi
    cases h
    exact .inl ⟨i, _, rfl, turn_inside (fun _ => by rw [hi]; decide) (.inl rfl) Pc.noConfusion
      (fun _ => hi) Pc.noConfusion⟩
  | wakeUp i =>
    simp only [step] at h
    split_ifs at h with hi
    cases h
    exact .inl ⟨i, _, rfl, turn_outside rfl (by rw [hi]; rfl) (fun _ => by rw [hi]; decide)
        Pc.noConfusion⟩
  | testExit i =>
    simp only [step] at h
    split_ifs at h with hi hexit
    · cases h
      exact .inl ⟨i, _, rfl, turn_inside (fun _ => by rw [hi]; decide) (.inl rfl) Pc.noConfusion
        Pc.noConfusion fun _ => (Bool.and_eq_true_iff.mp hexit).1⟩
    · cases h
      exact .inl ⟨i, _, rfl, turn_of_locks hs (by rw [hi]; rfl) (fun _ => by rw [hi]; decide) rfl
        Pc.noConfusion⟩
  | take i =>
    simp only [step] at h
    split_ifs at h with hi
    split at h
    · next hnil => exact absurd hnil (hs.taking i hi)
    · next t rest htasks =>
      cases h
      exact .inl ⟨i, _, rfl, turn_take hi htasks⟩
  | resume i =>
    simp only [step] at h
    split at h
    · next t hi =>
      cases h
      exact .inl ⟨i, _, rfl, turn_outside rfl (by rw [hi]; rfl)
        (fun _ => by rw [hi]; exact Nat.lt_succ_self _) Pc.noConfusion⟩
    · cases h
  | suspend i =>
    simp only [step] at h
    split_ifs at h with hi
    cases h
    exact .inl ⟨i, _, rfl, turn_outside rfl (by rw [hi]; rfl) (fun _ => by rw [hi]; decide)
        Pc.noConfusion⟩

/-! ## No lost wake-up -/

/-- Nobody but a worker in its critical section has the mutex; a worker goes to sleep on an empty
queue; and while all sleep or are going to, there is a notification to come for every handle. -/
structure Watchful (s : ThreadPool ι) : Prop where
  owner : ∀ i, s.owner = some i → (s.worker i).locks = true
  toSleep : ∀ i, s.worker i = .toSleep → s.tasks = []
  drowsy : (∀ i, (s.worker i).drowsy = true) → s.tasks.length ≤ s.notifies
  ended : ∀ i, s.worker i = .ended → s.isDone = true

/-- No worker can take a step by itself. -/
def Stuck (s : ThreadPool ι) : Prop := ∀ a : Action ι, a.byWorker = true → s.step a = none

lemma Watchful.turn (hw : Watchful s) (hs : Inv s) (hturn : Turn s s' i pc) : Watchful s' := by
  have hempty : pc.drowsy = true → s'.tasks = [] := by
    intro hdrowsy
    rcases Pc.drowsy_cases hdrowsy with htoSleep | hsleeping
    · obtain ⟨hnil, hsame⟩ := hturn.toSleep htoSleep
      rw [hsame, hnil]
    · obtain ⟨hfrom, hsame⟩ := hturn.sleeping hsleeping
      rw [hsame, hw.toSleep i hfrom]
  refine ⟨fun j hj => ?_, fun j hj => ?_, fun hall => ?_, fun j hj => ?_⟩
  · rw [hturn.worker]
    by_cases hij : j = i
    · subst hij
      rw [Function.update_self]
      rcases hturn.owner with hnone | ⟨-, hlocks⟩ | ⟨hsame, hkeep⟩
      · rw [hnone] at hj
        cases hj
      · exact hlocks
      · exact hkeep (hw.owner j (hsame ▸ hj))
    · rw [Function.update_of_ne hij]
      rcases hturn.owner with hnone | ⟨hown, -⟩ | ⟨hsame, -⟩
      · rw [hnone] at hj
        cases hj
      · rw [hown, Option.some_inj] at hj
        exact absurd hj.symm hij
      · exact hw.owner j (hsame ▸ hj)
  · rw [hturn.worker] at hj
    by_cases hij : j = i
    · rw [hij, Function.update_self] at hj
      exact hempty (hj ▸ rfl)
    · rw [Function.update_of_ne hij] at hj
      rcases hturn.tasks with hsame | ⟨htaking, -⟩
      · rw [hsame, hw.toSleep j hj]
      · exact absurd (hs.eq_of_locks (by rw [htaking]; rfl) (by rw [hj]; rfl)) hij
  · have hi := hall i
    rw [hturn.worker, Function.update_self] at hi
    rw [hempty hi]
    exact Nat.zero_le _
  · rw [hturn.isDone]
    rw [hturn.worker] at hj
    by_cases hij : j = i
    · rw [hij, Function.update_self] at hj
      exact hturn.ended hj
    · rw [Function.update_of_ne hij] at hj
      exact hw.ended j hj

omit [DecidableEq ι] in
lemma Watchful.env [Nonempty ι] (hw : Watchful s) (hs : Inv s) (henv : Env s a s') :
    Watchful s' := by
  -- where nobody sleeps, those who are going to have found the queue empty
  have hnobody : (∀ j, s.worker j ≠ .sleeping) → (∀ j, (s.worker j).drowsy = true) →
      s.tasks = [] := by
    intro hnone hall
    obtain ⟨j⟩ := ‹Nonempty ι›
    exact hw.toSleep j ((Pc.drowsy_cases (hall j)).resolve_right (hnone j))
  cases henv with
  | push howner hphase =>
    refine ⟨hw.owner, fun j hj => ?_, fun hall => ?_, hw.ended⟩
    · have hlocks := hs.owner j (by rw [hj]; rfl)
      rw [howner] at hlocks
      cases hlocks
    · have hcount := hw.drowsy hall
      show (s.tasks ++ [s.scheduled]).length ≤ s.notifies + 1
      rw [List.length_append, List.length_singleton]
      exact Nat.succ_le_succ hcount
  | notifyNone hnone =>
    refine ⟨hw.owner, hw.toSleep, fun hall => ?_, hw.ended⟩
    show s.tasks.length ≤ _
    rw [hnobody hnone hall]
    exact Nat.zero_le _
  | setDone => exact ⟨hw.owner, hw.toSleep, hw.drowsy, fun _ _ => rfl⟩
  | notifyAll =>
    refine ⟨fun j hj => ?_, fun j hj => ?_, fun hall => ?_, fun j hj => ?_⟩
    · have hlocks := hw.owner j hj
      show (s.worker j).wake.locks = true
      cases hpc : s.worker j <;> rw [hpc] at hlocks <;> first | rfl | cases hlocks
    · rcases wake_cases (P := fun q => q = .toSleep) hj with ⟨-, h⟩ | h
      · cases h
      · exact hw.toSleep j h
    · have hnot : ∀ j, s.worker j = .toSleep := by
        intro j
        have hj : (s.worker j).wake.drowsy = true := hall j
        cases hpc : s.worker j <;> rw [hpc] at hj <;> first | rfl | cases hj
      obtain ⟨j⟩ := ‹Nonempty ι›
      show s.tasks.length ≤ _
      rw [hw.toSleep j (hnot j)]
      exact Nat.zero_le _
    · rcases wake_cases (P := fun q => q = .ended) hj with ⟨-, h⟩ | h
      · cases h
      · exact hw.ended j h
  | join => exact ⟨hw.owner, hw.toSleep, hw.drowsy, hw.ended⟩
  | destroyRest =>
    exact ⟨hw.owner, fun _ _ => rfl, fun _ => Nat.zero_le _, hw.ended⟩

lemma preserves_watchful [Nonempty ι] :
    Preserves (step (ι := ι)) (fun s _ => Inv s) Watchful := by
  intro s a s' hw hs h
  rcases step_cases hs h with ⟨i, pc, -, hturn⟩ | henv
  · exact hw.turn hs hturn
  · exact hw.env hs henv

/-- A worker in the critical section can take a step. -/
lemma not_stuck_of_locks (hi : (s.worker i).locks = true) : ¬ s.Stuck := by
  intro hstuck
  cases hpc : s.worker i with
  | evaluating => simpa [step, hpc] using hstuck (.evaluate i) rfl
  | toSleep => simpa [step, hpc] using hstuck (.sleep i) rfl
  | exitTest =>
    have hnone := hstuck (.testExit i) rfl
    simp only [step, hpc, if_true] at hnone
    split_ifs at hnone
  | taking =>
    have hnone := hstuck (.take i) rfl
    simp only [step, hpc, if_true] at hnone
    split at hnone <;> cases hnone
  | _ => rw [hpc] at hi; cases hi

/-- Where no worker can take a step, each has ended or sleeps. -/
lemma Stuck.resting (hstuck : s.Stuck) (hw : Watchful s) (i : ι) :
    s.worker i = .ended ∨ s.worker i = .sleeping := by
  have howner : s.owner = none := by
    cases hown : s.owner with
    | none => rfl
    | some j => exact absurd hstuck (not_stuck_of_locks (hw.owner j hown))
  cases hpc : s.worker i with
  | ended => exact .inl rfl
  | sleeping => exact .inr rfl
  | loopHead =>
    have hnone := hstuck (.testLoop i) rfl
    simp [step, hpc] at hnone
  | locking =>
    have hnone := hstuck (.lock i) rfl
    simp [step, hpc, howner] at hnone
  | holding t =>
    have hnone := hstuck (.resume i) rfl
    simp [step, hpc] at hnone
  | running =>
    have hnone := hstuck (.suspend i) rfl
    simp [step, hpc] at hnone
  | _ => exact absurd hstuck (not_stuck_of_locks (i := i) (by rw [hpc]; rfl))

/-- While the pool is in use and no worker can take a step, there is a notification to come for
every handle in the queue. -/
def NoneForgotten (s : ThreadPool ι) : Prop :=
  s.isDone = false → s.Stuck → s.tasks.length ≤ s.notifies

lemma Watchful.noneForgotten (hw : Watchful s) : s.NoneForgotten := by
  intro hdone hstuck
  refine hw.drowsy fun i => ?_
  rcases hstuck.resting hw i with hended | hsleeping
  · have := hw.ended i hended
    rw [hdone] at this
    cases this
  · rw [hsleeping]
    rfl

/-! ## The destructor gets through -/

/-- The destructor waits for workers that can take a step only, and for no mutex. -/
structure Unblocked (s : ThreadPool ι) : Prop where
  join : s.phase = .joining → s.Stuck → (s.step .join).isSome = true
  destroyRest : s.phase = .joined → (s.step .destroyRest).isSome = true

lemma unblocked (hs : Inv s) (hw : Watchful s) (hroused : Roused s) : s.Unblocked where
  join := by
    intro hphase hstuck
    have hended : ∀ i, s.worker i = .ended := by
      intro i
      refine (hstuck.resting hw i).resolve_right fun hsleeping => ?_
      have hawake := hroused.awake (by rw [hphase]; rfl) i
      rw [hsleeping] at hawake
      cases hawake
    simp only [step]
    rw [if_pos ⟨hphase, hended⟩]
    rfl
  destroyRest := by
    intro hphase
    have howner : s.owner = none := by
      cases hown : s.owner with
      | none => rfl
      | some j =>
        have hlocks := hw.owner j hown
        rw [hs.joined (.inl hphase) j] at hlocks
        cases hlocks
    simp only [step]
    rw [if_pos ⟨hphase, howner⟩]
    rfl

/-! ## How much is left to do -/

/-- The rank of a worker's state, once `mIsDone` is set; before that, the most that it can be. -/
def rank (f : Pc → ℕ) (most : ℕ) (i : ι) (s : ThreadPool ι) : ℕ :=
  if s.isDone then f (s.worker i) else most

omit [DecidableEq ι] [Fintype ι] in
lemma rank_of_isDone {f : Pc → ℕ} {most : ℕ} (h : s.isDone = true) :
    rank f most i s = f (s.worker i) := if_pos h

omit [DecidableEq ι] [Fintype ι] in
lemma rank_of_not_isDone {f : Pc → ℕ} {most : ℕ} (h : s.isDone = false) :
    rank f most i s = most := by
  rw [rank, h]
  exact if_neg Bool.false_ne_true

/-- A rank that grows with what the worker has left to do does not grow. -/
lemma rank_le {f : Pc → ℕ} {most : ℕ} (hmost : ∀ pc, f pc ≤ most)
    (hmono : ∀ pc pc' : Pc, pc.left ≤ pc'.left → f pc ≤ f pc') (hs : Inv s)
    (h : s.step a = some s') : rank f most i s' ≤ rank f most i s := by
  -- a step after which the worker has no more left than before
  have hkeep : ∀ t : ThreadPool ι, (s.isDone = true → (t.worker i).left ≤ (s.worker i).left) →
      (s.isDone = true → t.isDone = true) → rank f most i t ≤ rank f most i s := by
    intro t hle hflag
    by_cases hdone : s.isDone = true
    · rw [rank_of_isDone hdone, rank_of_isDone (hflag hdone)]
      exact hmono _ _ (hle hdone)
    · rw [rank_of_not_isDone (Bool.eq_false_iff.mpr hdone), rank]
      split_ifs
      · exact hmost _
      · exact le_refl _
  rcases step_cases hs h with ⟨j, pc, -, hturn⟩ | henv
  · refine hkeep _ (fun hdone => ?_) fun hdone => hturn.isDone.trans hdone
    rw [hturn.worker]
    by_cases hij : i = j
    · rw [hij, Function.update_self]
      exact (hturn.left hdone).le
    · rw [Function.update_of_ne hij]
  · cases henv with
    | setDone => exact hkeep _ (fun _ => le_refl _) fun _ => rfl
    | notifyAll => exact hkeep _ (fun _ => Pc.left_wake _) id
    | _ => exact hkeep _ (fun _ => le_refl _) id

/-- A step that worker `i` takes by itself once `mIsDone` is set. -/
def worksLate (i : ι) (s : ThreadPool ι) (a : Action ι) : Bool := s.isDone && a.worker == some i

/-- A handle that worker `i` resumes once `mIsDone` is set. -/
def resumesLate (i : ι) (s : ThreadPool ι) : Action ι → Bool
  | .resume j => s.isDone && j == i
  | _ => false

lemma work_le_rank (hs : Inv s) (h : s.step a = some s') :
    (if s.worksLate i a then 1 else 0) + rank Pc.left 9 i s' ≤ rank Pc.left 9 i s := by
  have hle : rank Pc.left 9 i s' ≤ rank Pc.left 9 i s := rank_le Pc.left_le (fun _ _ => id) hs h
  split_ifs with hlate
  · obtain ⟨hdone, hworker⟩ := Bool.and_eq_true_iff.mp hlate
    rw [beq_iff_eq] at hworker
    rcases step_cases hs h with ⟨j, pc, hj, hturn⟩ | henv
    · rw [hworker, Option.getD_some] at hj
      subst hj
      rw [rank_of_isDone hdone, rank_of_isDone (hturn.isDone.trans hdone), hturn.worker,
        Function.update_self, Nat.add_comm]
      exact hturn.left hdone
    · cases henv <;> cases hworker
  · rwa [Nat.zero_add]

lemma resumes_le_rank (hs : Inv s) (h : s.step a = some s') :
    (if s.resumesLate i a then 1 else 0) + rank Pc.mayResume 1 i s' ≤ rank Pc.mayResume 1 i s := by
  have hle : rank Pc.mayResume 1 i s' ≤ rank Pc.mayResume 1 i s :=
    rank_le Pc.mayResume_le (fun _ _ => Pc.mayResume_mono) hs h
  split_ifs with hlate
  · cases a with
    | resume j =>
      obtain ⟨hdone, hj⟩ := Bool.and_eq_true_iff.mp hlate
      rw [beq_iff_eq] at hj
      subst hj
      simp only [step] at h
      split at h
      · next t hi =>
        have hdone' : s'.isDone = true := by
          cases h
          exact hdone
        have hworker : s'.worker = Function.update s.worker j .running := by
          cases h
          rfl
        rw [rank_of_isDone hdone, rank_of_isDone hdone', hworker, Function.update_self, hi]
        exact le_refl 1
      · cases h
    | _ => cases hlate
  · rwa [Nat.zero_add]

/-! ## In which order -/

/-- The handles that were taken are the first ones scheduled, the others wait in order, and at the
end they are what the destructor destroys. -/
def TakenInOrder (s : ThreadPool ι) : Prop :=
  ∃ k ≤ s.scheduled,
    s.destroyed ++ s.tasks = List.range' k (s.scheduled - k) ∧
    (s.resumed : Multiset ℕ) + ∑ i, (s.worker i).held = Multiset.range k ∧
    (s.phase = .finished →
      s.destroyed = List.range' k (s.scheduled - k) ∧ s.resumed.Perm (List.range k))

/-- What waits or was destroyed are consecutive handles, up to the last one scheduled. -/
structure Queued (s : ThreadPool ι) : Prop where
  consecutive : ∃ k ≤ s.scheduled, s.destroyed ++ s.tasks = List.range' k (s.scheduled - k)
  destroyed : s.phase ≠ .finished → s.destroyed = []

lemma preserves_queued : Preserves (step (ι := ι)) (fun s _ => Inv s) Queued := by
  intro s a s' hq hs h
  obtain ⟨k, hk, hqueue⟩ := hq.consecutive
  rcases step_cases hs h with ⟨i, pc, -, hturn⟩ | henv
  · refine ⟨?_, fun hphase => ?_⟩
    · rw [hturn.scheduled, hturn.destroyed]
      rcases hturn.tasks with hsame | ⟨htaking, t, htasks⟩
      · exact ⟨k, hk, by rw [hsame, hqueue]⟩
      · -- the pool is in use, so nothing was destroyed and the first handle waiting is `k`
        have hnot := hs.not_joined (i := i) (by rw [htaking]; exact Pc.noConfusion)
        have hnil := hq.destroyed fun h => hnot (.inr h)
        rw [hnil, List.nil_append, htasks] at hqueue
        have hpos : s.scheduled - k ≠ 0 := by
          intro hzero
          rw [hzero] at hqueue
          cases hqueue
        obtain ⟨n, hn⟩ := Nat.exists_eq_succ_of_ne_zero hpos
        rw [hn, List.range'_succ, List.cons.injEq] at hqueue
        refine ⟨k + 1, by omega, ?_⟩
        rw [hnil, List.nil_append, hqueue.2]
        congr 1
        omega
    · rw [hturn.destroyed]
      exact hq.destroyed (hturn.phase ▸ hphase)
  · cases henv with
    | push howner hphase =>
      refine ⟨⟨k, Nat.le_succ_of_le hk, ?_⟩, hq.destroyed⟩
      show s.destroyed ++ (s.tasks ++ [s.scheduled]) = List.range' k (s.scheduled + 1 - k)
      rw [← List.append_assoc, hqueue, Nat.succ_sub hk, List.range'_concat]
      congr 2
      omega
    | destroyRest =>
      refine ⟨⟨k, hk, ?_⟩, fun h => absurd rfl h⟩
      show s.destroyed ++ s.tasks ++ [] = _
      rw [List.append_nil, hqueue]
    | notifyNone => exact ⟨⟨k, hk, hqueue⟩, hq.destroyed⟩
    | setDone hphase | notifyAll hphase | join hphase =>
      exact ⟨⟨k, hk, hqueue⟩, fun _ => hq.destroyed (by rw [hphase]; exact Phase.noConfusion)⟩

omit [DecidableEq ι] in
lemma Queued.takenInOrder (hq : Queued s) (hs : Inv s) : s.TakenInOrder := by
  obtain ⟨k, hk, hqueue⟩ := hq.consecutive
  have hrange : Multiset.range s.scheduled =
      Multiset.range k + (List.range' k (s.scheduled - k) : Multiset ℕ) := by
    have hsplit : List.range s.scheduled = List.range k ++ List.range' k (s.scheduled - k) := by
      rw [List.range_eq_range', List.range_eq_range', ← Nat.add_sub_cancel' hk,
        ← List.range'_append_1, Nat.zero_add, Nat.add_sub_cancel_left]
    rw [Multiset.range, hsplit, ← Multiset.coe_add]
    rfl
  have htaken : (s.resumed : Multiset ℕ) + ∑ i, (s.worker i).held = Multiset.range k := by
    have hconserved := hs.conserved
    rw [hrange, ← hqueue, ← Multiset.coe_add] at hconserved
    refine add_right_cancel (b := (s.destroyed : Multiset ℕ) + s.tasks) ?_
    rw [← hconserved]
    abel
  refine ⟨k, hk, hqueue, htaken, fun hphase => ?_⟩
  have hheld : ∑ i, (s.worker i).held = 0 := by
    refine Finset.sum_eq_zero fun i _ => ?_
    rw [hs.joined (.inr hphase) i]
    rfl
  rw [hs.drained hphase, List.append_nil] at hqueue
  rw [hheld, add_zero] at htaken
  exact ⟨hqueue, Multiset.coe_eq_coe.mp htaken⟩

/-! ## Runs of the pool -/

omit [DecidableEq ι] [Fintype ι] in
lemma watchful_new : Watchful (new : ThreadPool ι) where
  owner := fun _ h => by cases h
  toSleep := fun _ h => by cases h
  drowsy := fun _ => Nat.zero_le _
  ended := fun _ h => by cases h

omit [DecidableEq ι] [Fintype ι] in
lemma queued_new : Queued (new : ThreadPool ι) where
  consecutive := ⟨0, Nat.zero_le _, rfl⟩
  destroyed := fun _ => rfl

lemma along_inv (as : List (Action ι)) : Along step (fun s _ => Inv s) (new : ThreadPool ι) as :=
  preserves_inv.along (fun _ _ _ hs _ _ => hs) inv_new (along_of_forall (fun _ _ => trivial) _ _)

/-- **No wake-up is lost.**  With at least one worker, in every state of every run: while the pool
is in use and no worker can take a step, each handle in the queue has its notification to come. -/
theorem throughout_noneForgotten [Nonempty ι] (as : List (Action ι)) :
    Throughout step NoneForgotten (new : ThreadPool ι) as :=
  preserves_watchful.throughout (fun _ hw => hw.noneForgotten) watchful_new (along_inv as)

/-- Both workers sleep when a handle comes; one of them is woken and takes it. -/
theorem throughout_noneForgotten_two :
    Throughout step NoneForgotten (new : ThreadPool (Fin 2))
      [.testLoop 0, .lock 0, .evaluate 0, .sleep 0, .testLoop 1, .lock 1, .evaluate 1, .sleep 1,
        .push, .notifyOne (some 1), .lock 1, .evaluate 1, .testExit 1, .take 1] :=
  throughout_noneForgotten _

/-- **What is left to do once the destructor has set its flag.**  However many handles are in the
queue or are scheduled still, a worker takes at most nine steps and resumes at most one handle. -/
theorem work_le (as : List (Action ι)) (i : ι) :
    countAlong step (worksLate i) new as ≤ 9 ∧ countAlong step (resumesLate i) new as ≤ 1 := by
  have hwork : countAlong step (worksLate i) new as ≤ rank Pc.left 9 i new :=
    preserves_inv.countAlong_le (fun _ _ _ hs h => work_le_rank hs h) inv_new
  have hresume : countAlong step (resumesLate i) new as ≤ rank Pc.mayResume 1 i new :=
    preserves_inv.countAlong_le (fun _ _ _ hs h => resumes_le_rank hs h) inv_new
  rw [rank_of_not_isDone rfl] at hwork hresume
  exact ⟨hwork, hresume⟩

/-- **The order.**  Handles are taken in the order in which they were scheduled, by whichever
workers, and those that the destructor destroys are the last ones. -/
theorem throughout_takenInOrder (as : List (Action ι)) :
    Throughout step TakenInOrder (new : ThreadPool ι) as := by
  have hpres : Preserves (step (ι := ι)) (fun _ _ => True) fun s => Inv s ∧ Queued s :=
    fun s a s' hs _ h =>
      ⟨preserves_inv s a s' hs.1 trivial h, preserves_queued s a s' hs.2 hs.1 h⟩
  exact hpres.throughout (fun _ hs => hs.2.takenInOrder hs.1) ⟨inv_new, queued_new⟩
    (along_of_forall (fun _ _ => trivial) _ _)

/-- **The destructor gets through** in every run in which no worker is between its predicate and
its sleep when the destructor notifies: it waits for workers that can take a step only. -/
theorem throughout_unblocked [Nonempty ι] (as : List (Action ι))
    (hbetween : Along step NobodyBetween new as) :
    Throughout step Unblocked (new : ThreadPool ι) as := by
  have hpres : Preserves (step (ι := ι)) NobodyBetween fun s => (Inv s ∧ Watchful s) ∧ Roused s :=
    fun s a s' hs hC h =>
      ⟨⟨preserves_inv s a s' hs.1.1 trivial h, preserves_watchful s a s' hs.1.2 hs.1.1 h⟩,
        preserves_roused s a s' hs.2 hC h⟩
  exact hpres.throughout (fun _ hs => unblocked hs.1.1 hs.1.2 hs.2)
    ⟨⟨inv_new, watchful_new⟩, fun h => absurd rfl h, fun h => absurd h Bool.false_ne_true⟩ hbetween

/-- A worker that is in a coroutine and one that sleeps when the destructor notifies. -/
theorem throughout_unblocked_two :
    Throughout step Unblocked (new : ThreadPool (Fin 2))
      [.push, .notifyOne none, .testLoop 0, .lock 0, .evaluate 0, .testExit 0, .take 0,
        .testLoop 1, .lock 1, .evaluate 1, .sleep 1, .resume 0, .setDone, .notifyAll, .suspend 0,
        .testLoop 0, .lock 1, .evaluate 1, .testExit 1, .join, .destroyRest] :=
  throughout_unblocked _ (by decide)

end ThreadPool

end ClientServer.TestThreadpool
