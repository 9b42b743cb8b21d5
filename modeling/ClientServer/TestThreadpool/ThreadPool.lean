import ClientServer.Library.Holding
import ClientServer.Library.Runs
import Mathlib.Data.Multiset.Range

/-!
# `test_threadpool/main.cpp`: the class `ThreadPool`

A worker holds the mutex from where it enters to where it goes to sleep, returns, or has taken a
handle out of the queue; every other step of the workers, of `Schedule` and of the destructor may
come in between.  The handles are numbered in the order in which they were scheduled.

Every handle is resumed or destroyed, and only once (`throughout_treatedOnce`): the queue, the
workers and what became of the others together always have every handle that was scheduled.

The destructor does not hold the mutex when it sets `mIsDone` and notifies, so a worker may have
found that there is nothing to do and not sleep yet.  In runs in which no worker is there when
the destructor notifies, none sleeps afterwards (`throughout_awake`).
-/

namespace ClientServer.TestThreadpool

/-- Where a worker is. -/
inductive Pc
  /-- Before `!mIsDone` at the head of the loop. -/
  | loopHead
  /-- Before it gets the mutex, for the first time or after it was woken. -/
  | locking
  /-- Before the predicate of `wait`. -/
  | evaluating
  /-- The predicate was false; it holds the mutex and is going to sleep. -/
  | toSleep
  | sleeping
  /-- Behind `wait`, before `mIsDone && mTasks.empty()`. -/
  | exitTest
  /-- Before it takes a handle. -/
  | taking
  /-- Before `resume`. -/
  | holding (h : ℕ)
  /-- In the coroutine. -/
  | running
  | ended
  deriving DecidableEq

/-- The handle that the worker has taken. -/
def Pc.held : Pc → Multiset ℕ
  | .holding h => {h}
  | _ => 0

/-- Whether the worker holds the mutex. -/
def Pc.locks : Pc → Bool
  | .evaluating | .toSleep | .exitTest | .taking => true
  | _ => false

/-- Whether the worker sleeps or is going to. -/
def Pc.drowsy : Pc → Bool
  | .toSleep | .sleeping => true
  | _ => false

/-- What `notify_all` does to a worker. -/
def Pc.wake : Pc → Pc
  | .sleeping => .locking
  | pc => pc

/-- How far the destructor is. -/
inductive Phase
  | notStarted
  /-- `mIsDone` is set. -/
  | flagged
  /-- After `notify_all`, in `join`. -/
  | joining
  /-- All threads were joined. -/
  | joined
  | finished
  deriving DecidableEq

/-- Whether the destructor has called `notify_all`. -/
def Phase.notified : Phase → Bool
  | .notStarted | .flagged => false
  | .joining | .joined | .finished => true

/-- The fields of class `ThreadPool`, its threads, and what became of the handles. -/
structure ThreadPool (ι : Type*) where
  isDone : Bool
  tasks : List ℕ
  /-- The worker that holds `mMutex`. -/
  owner : Option ι
  worker : ι → Pc
  phase : Phase
  /-- The number of handles that were scheduled. -/
  scheduled : ℕ
  /-- The calls of `Schedule` that have not come to `notify_one`. -/
  notifies : ℕ
  resumed : List ℕ
  destroyed : List ℕ
  /-- A handle was taken from an empty queue. -/
  fault : Bool

namespace ThreadPool

variable {ι : Type*}

/-- What happens. -/
inductive Action (ι : Type*)
  /-- The critical section of `Schedule`. -/
  | push
  /-- `notify_one`, and the worker that it wakes. -/
  | notifyOne (i : Option ι)
  /-- `mIsDone = true`. -/
  | setDone
  | notifyAll
  /-- All calls of `join` have returned. -/
  | join
  /-- The critical section of the destructor. -/
  | destroyRest
  | testLoop (i : ι)
  | lock (i : ι)
  | evaluate (i : ι)
  | sleep (i : ι)
  /-- `wait` wakes up without a notification. -/
  | wakeUp (i : ι)
  | testExit (i : ι)
  | take (i : ι)
  | resume (i : ι)
  /-- The coroutine suspends or ends. -/
  | suspend (i : ι)
  deriving DecidableEq

/-- A new pool. -/
def new : ThreadPool ι :=
  ⟨false, [], none, fun _ => .loopHead, .notStarted, 0, 0, [], [], false⟩

section Step

variable [DecidableEq ι]

/-- The worker goes on. -/
def setPc (s : ThreadPool ι) (i : ι) (pc : Pc) : ThreadPool ι :=
  { s with worker := Function.update s.worker i pc }

/-- One step, where it can be taken. -/
def step [Fintype ι] (s : ThreadPool ι) : Action ι → Option (ThreadPool ι)
  | .push =>
    if s.owner = none ∧ s.phase ≠ .joined ∧ s.phase ≠ .finished then
      some
        { s with
          tasks := s.tasks ++ [s.scheduled]
          scheduled := s.scheduled + 1
          notifies := s.notifies + 1 }
    else none
  | .notifyOne i =>
    if s.notifies = 0 then none
    else
      match i with
      | none =>
        if ∀ j, s.worker j ≠ .sleeping then some { s with notifies := s.notifies - 1 } else none
      | some i =>
        if s.worker i = .sleeping then
          some ({ s with notifies := s.notifies - 1 }.setPc i .locking)
        else none
  | .setDone =>
    if s.phase = .notStarted then some { s with isDone := true, phase := .flagged } else none
  | .notifyAll =>
    if s.phase = .flagged then
      some { s with worker := fun j => (s.worker j).wake, phase := .joining }
    else none
  | .join =>
    if s.phase = .joining ∧ ∀ j, s.worker j = .ended then some { s with phase := .joined }
    else none
  | .destroyRest =>
    if s.phase = .joined ∧ s.owner = none then
      some { s with tasks := [], destroyed := s.destroyed ++ s.tasks, phase := .finished }
    else none
  | .testLoop i =>
    if s.worker i = .loopHead then some (s.setPc i (if s.isDone then .ended else .locking))
    else none
  | .lock i =>
    if s.worker i = .locking ∧ s.owner = none then
      some ({ s with owner := some i }.setPc i .evaluating)
    else none
  | .evaluate i =>
    if s.worker i = .evaluating then
      some (s.setPc i (if s.isDone || !s.tasks.isEmpty then .exitTest else .toSleep))
    else none
  | .sleep i =>
    if s.worker i = .toSleep then some ({ s with owner := none }.setPc i .sleeping) else none
  | .wakeUp i =>
    if s.worker i = .sleeping then some (s.setPc i .locking) else none
  | .testExit i =>
    if s.worker i = .exitTest then
      if s.isDone && s.tasks.isEmpty then some ({ s with owner := none }.setPc i .ended)
      else some (s.setPc i .taking)
    else none
  | .take i =>
    if s.worker i = .taking then
      match s.tasks with
      | [] => some { s with fault := true }
      | h :: rest => some ({ s with tasks := rest, owner := none }.setPc i (.holding h))
    else none
  | .resume i =>
    match s.worker i with
    | .holding h => some ({ s with resumed := s.resumed ++ [h] }.setPc i .running)
    | _ => none
  | .suspend i =>
    if s.worker i = .running then some (s.setPc i .loopHead) else none

end Step

/-- Once the destructor has finished, every handle that was scheduled was resumed or destroyed,
once and not both; and no worker took a handle from an empty queue. -/
structure TreatedOnce (s : ThreadPool ι) : Prop where
  once : s.phase = .finished → ∀ h,
    s.resumed.count h + s.destroyed.count h = if h < s.scheduled then 1 else 0
  fault : s.fault = false

/-- After `notify_all` no worker sleeps in `join` while no notification is to come. -/
def Awake (s : ThreadPool ι) : Prop :=
  s.phase = .joining → s.notifies = 0 → ∀ i, s.worker i ≠ .sleeping

instance [Fintype ι] : DecidablePred (Awake (ι := ι)) := fun s =>
  inferInstanceAs (Decidable (s.phase = .joining → s.notifies = 0 → ∀ i, s.worker i ≠ .sleeping))

/-- When the destructor notifies, no worker is going to sleep. -/
def NobodyBetween (s : ThreadPool ι) : Action ι → Prop
  | .notifyAll => ∀ i, s.worker i ≠ .toSleep
  | _ => True

instance [Fintype ι] (s : ThreadPool ι) : DecidablePred s.NobodyBetween
  | .notifyAll => inferInstanceAs (Decidable (∀ i, s.worker i ≠ .toSleep))
  | .push | .notifyOne .. | .setDone | .join | .destroyRest | .testLoop .. | .lock ..
  | .evaluate .. | .sleep .. | .wakeUp .. | .testExit .. | .take .. | .resume ..
  | .suspend .. => isTrue trivial

/-! ## One worker -/

/-- What holds of a worker after `notify_all`. -/
lemma wake_cases {P : Pc → Prop} {pc : Pc} (h : P pc.wake) :
    pc = .sleeping ∧ P .locking ∨ P pc := by
  cases pc with
  | sleeping => exact Or.inl ⟨rfl, h⟩
  | _ => exact Or.inr h

/-- What holds of the workers after one of them went on. -/
lemma forall_setPc [DecidableEq ι] {s : ThreadPool ι} {i : ι} {pc : Pc} {P : ι → Pc → Prop}
    (hi : P i pc) (hother : ∀ j, j ≠ i → P j (s.worker j)) :
    ∀ j, P j ((s.setPc i pc).worker j) :=
  (Function.forall_update_iff s.worker P).mpr ⟨hi, hother⟩

/-! ## Where the handles are -/

/-- Every handle that was scheduled is in the queue, with a worker, or was treated; the mutex has
one owner, and what a worker has found under it is still so. -/
structure Inv [Fintype ι] (s : ThreadPool ι) : Prop where
  conserved : (s.tasks : Multiset ℕ) + ∑ i, (s.worker i).held + s.resumed + s.destroyed =
    Multiset.range s.scheduled
  owner : ∀ i, (s.worker i).locks = true → s.owner = some i
  exitTest : ∀ i, s.worker i = .exitTest → s.isDone = true ∨ s.tasks ≠ []
  taking : ∀ i, s.worker i = .taking → s.tasks ≠ []
  joined : s.phase = .joined ∨ s.phase = .finished → ∀ i, s.worker i = .ended
  drained : s.phase = .finished → s.tasks = []
  fault : s.fault = false

variable [Fintype ι] {s s' : ThreadPool ι} {i : ι} {pc : Pc}

lemma Inv.treatedOnce (hs : Inv s) : s.TreatedOnce where
  once := by
    intro hphase h
    have hheld : ∑ i, (s.worker i).held = 0 := by
      refine Finset.sum_eq_zero fun i _ => ?_
      rw [hs.joined (Or.inr hphase) i]
      rfl
    have hconserved := hs.conserved
    rw [hs.drained hphase, hheld, Multiset.coe_nil, zero_add, zero_add] at hconserved
    have hcount := congrArg (Multiset.count h) hconserved
    rw [Multiset.count_add, Multiset.coe_count, Multiset.coe_count,
      Multiset.count_eq_of_nodup (Multiset.nodup_range _)] at hcount
    simpa only [Multiset.mem_range] using hcount
  fault := hs.fault

lemma Inv.push (hs : Inv s) (hphase : s.phase ≠ .joined ∧ s.phase ≠ .finished) :
    Inv ({ s with
      tasks := s.tasks ++ [s.scheduled]
      scheduled := s.scheduled + 1
      notifies := s.notifies + 1 } : ThreadPool ι) where
  conserved := by
    have hsplit : ((s.tasks ++ [s.scheduled] : List ℕ) : Multiset ℕ) =
        s.scheduled ::ₘ (s.tasks : Multiset ℕ) := by
      rw [← Multiset.coe_add, Multiset.coe_singleton, add_comm, Multiset.singleton_add]
    rw [hsplit, Multiset.cons_add, Multiset.cons_add, Multiset.cons_add, hs.conserved,
      Multiset.range_succ]
  owner := hs.owner
  exitTest := fun _ _ => Or.inr (List.append_ne_nil_of_right_ne_nil _ (List.cons_ne_nil _ _))
  taking := fun _ _ => List.append_ne_nil_of_right_ne_nil _ (List.cons_ne_nil _ _)
  joined := fun h => absurd h (not_or.mpr hphase)
  drained := fun h => absurd h hphase.2
  fault := hs.fault

/-- `notify_all` changes nothing but where the sleeping workers are. -/
lemma Inv.notifyAll (hs : Inv s) :
    Inv ({ s with worker := fun j => (s.worker j).wake, phase := .joining } : ThreadPool ι) where
  conserved := by
    have hheld : ∀ pc : Pc, pc.wake.held = pc.held := fun pc => by cases pc <;> rfl
    simp only [hheld]
    exact hs.conserved
  owner := by
    intro i hi
    rcases wake_cases (P := fun pc => pc.locks = true) hi with ⟨-, hlocks⟩ | hlocks
    · cases hlocks
    · exact hs.owner i hlocks
  exitTest := by
    intro i hi
    rcases wake_cases (P := fun pc => pc = .exitTest) hi with ⟨-, hpc⟩ | hpc
    · cases hpc
    · exact hs.exitTest i hpc
  taking := by
    intro i hi
    rcases wake_cases (P := fun pc => pc = .taking) hi with ⟨-, hpc⟩ | hpc
    · cases hpc
    · exact hs.taking i hpc
  joined := fun h => by rcases h with h | h <;> cases h
  drained := fun h => by cases h
  fault := hs.fault

lemma Inv.destroyRest (hs : Inv s) (hphase : s.phase = .joined) :
    Inv ({ s with tasks := [], destroyed := s.destroyed ++ s.tasks, phase := .finished } :
      ThreadPool ι) := by
  have hended := hs.joined (Or.inl hphase)
  refine ⟨?_, hs.owner, fun i hi => ?_, fun i hi => ?_, fun _ => hended, fun _ => rfl, hs.fault⟩
  · rw [← hs.conserved, ← Multiset.coe_add, Multiset.coe_nil]
    abel
  · rw [hended i] at hi
    cases hi
  · rw [hended i] at hi
    cases hi

/-- A worker that has not ended is in a pool that was not joined. -/
lemma Inv.not_joined (hs : Inv s) (hi : s.worker i ≠ .ended) :
    ¬ (s.phase = .joined ∨ s.phase = .finished) := fun h => hi (hs.joined h i)

/-- Only one worker has the mutex. -/
lemma Inv.eq_of_locks (hs : Inv s) {j : ι} (hi : (s.worker i).locks = true)
    (hj : (s.worker j).locks = true) : j = i := by
  have howner := hs.owner j hj
  rw [hs.owner i hi, Option.some_inj] at howner
  exact howner.symm

variable [DecidableEq ι]

lemma sum_held_setPc (s : ThreadPool ι) (i : ι) (pc : Pc) :
    ∑ j, ((s.setPc i pc).worker j).held + (s.worker i).held =
      ∑ j, (s.worker j).held + pc.held := by
  have hupdate : (fun j => ((s.setPc i pc).worker j).held) =
      Function.update (fun j => (s.worker j).held) i pc.held :=
    Function.comp_update Pc.held s.worker i pc
  rw [hupdate]
  exact sum_update_add (fun j => (s.worker j).held) i pc.held

/-- A worker goes on, and gets or gives up the mutex or neither, without any handle. -/
lemma Inv.move (hs : Inv s) {owner : Option ι} (hheld : pc.held = (s.worker i).held)
    (howner : s.owner = none ∨ s.owner = some i ∨ owner = s.owner)
    (hlocks : pc.locks = true → owner = some i)
    (hexit : pc = .exitTest → s.isDone = true ∨ s.tasks ≠ [])
    (htaking : pc = .taking → s.tasks ≠ []) (hi : s.worker i ≠ .ended) :
    Inv (({ s with owner := owner } : ThreadPool ι).setPc i pc) := by
  refine ⟨?_, ?_, ?_, ?_, fun h => absurd (hs.joined h i) hi, hs.drained, hs.fault⟩
  · have hsum := sum_held_setPc s i pc
    rw [hheld] at hsum
    exact add_right_cancel hsum ▸ hs.conserved
  · refine forall_setPc (P := fun j q => q.locks = true → owner = some j) hlocks
      fun j hne hj => ?_
    have hold := hs.owner j hj
    rcases howner with hnone | hown | hsame
    · rw [hnone] at hold
      cases hold
    · rw [hown, Option.some_inj] at hold
      exact absurd hold.symm hne
    · exact hsame.trans hold
  · exact forall_setPc (P := fun _ q => q = .exitTest → _) hexit fun j _ => hs.exitTest j
  · exact forall_setPc (P := fun _ q => q = .taking → _) htaking fun j _ => hs.taking j

/-- A worker takes the first handle out of the queue and gives up the mutex. -/
lemma Inv.take (hs : Inv s) (hi : s.worker i = .taking) {h : ℕ} {rest : List ℕ}
    (htasks : s.tasks = h :: rest) :
    Inv (({ s with tasks := rest, owner := none } : ThreadPool ι).setPc i (.holding h)) := by
  have hother : ∀ j, j ≠ i → ¬ (s.worker j).locks = true := fun j hne hj =>
    hne (hs.eq_of_locks (by rw [hi]; rfl) hj)
  have hactive := hs.not_joined (i := i) (by rw [hi]; exact Pc.noConfusion)
  refine ⟨?_, ?_, ?_, ?_, fun h => absurd h hactive, fun h => absurd (Or.inr h) hactive, hs.fault⟩
  · have hsum : ∑ j, ((s.setPc i (.holding h)).worker j).held = ∑ j, (s.worker j).held + {h} := by
      have hsum := sum_held_setPc s i (.holding h)
      rwa [hi, show Pc.taking.held = 0 from rfl, add_zero] at hsum
    have hconserved := hs.conserved
    rw [htasks, ← Multiset.cons_coe, ← Multiset.singleton_add] at hconserved
    calc (rest : Multiset ℕ) + ∑ j, ((s.setPc i (.holding h)).worker j).held + s.resumed +
          s.destroyed
        = rest + (∑ j, (s.worker j).held + {h}) + s.resumed + s.destroyed :=
          congrArg (fun held => (rest : Multiset ℕ) + held + s.resumed + s.destroyed) hsum
      _ = {h} + rest + ∑ j, (s.worker j).held + s.resumed + s.destroyed := by abel
      _ = Multiset.range s.scheduled := hconserved
  · exact forall_setPc (P := fun j q => q.locks = true → _) Bool.noConfusion
      fun j hne hj => absurd hj (hother j hne)
  · exact forall_setPc (P := fun _ q => q = .exitTest → _) Pc.noConfusion
      fun j hne hj => absurd (congrArg Pc.locks hj) (hother j hne)
  · exact forall_setPc (P := fun _ q => q = .taking → _) Pc.noConfusion
      fun j hne hj => absurd (congrArg Pc.locks hj) (hother j hne)

/-- A worker resumes the handle that it has. -/
lemma Inv.resume (hs : Inv s) {h : ℕ} (hi : s.worker i = .holding h) :
    Inv (({ s with resumed := s.resumed ++ [h] } : ThreadPool ι).setPc i .running) := by
  have hactive := hs.not_joined (i := i) (by rw [hi]; exact Pc.noConfusion)
  refine ⟨?_, ?_, ?_, ?_, fun h => absurd h hactive, fun h => absurd (Or.inr h) hactive, hs.fault⟩
  · have hsum := sum_held_setPc s i .running
    rw [hi] at hsum
    calc (s.tasks : Multiset ℕ) + ∑ j, ((s.setPc i .running).worker j).held +
          ((s.resumed ++ [h] : List ℕ) : Multiset ℕ) + s.destroyed
        = s.tasks + (∑ j, ((s.setPc i .running).worker j).held + {h}) + s.resumed +
          s.destroyed := by
          rw [← Multiset.coe_add, Multiset.coe_singleton]
          abel
      _ = s.tasks + ∑ j, (s.worker j).held + s.resumed + s.destroyed := by
          rw [show ∑ j, ((s.setPc i .running).worker j).held + {h} =
            ∑ j, (s.worker j).held + 0 from hsum, add_zero]
      _ = Multiset.range s.scheduled := hs.conserved
  · exact forall_setPc (P := fun j q => q.locks = true → _) Bool.noConfusion
      fun j _ => hs.owner j
  · exact forall_setPc (P := fun _ q => q = .exitTest → _) Pc.noConfusion
      fun j _ => hs.exitTest j
  · exact forall_setPc (P := fun _ q => q = .taking → _) Pc.noConfusion
      fun j _ => hs.taking j

/-- A worker goes on where it does not have the mutex. -/
lemma Inv.moveOff (hs : Inv s) {owner : Option ι} {pc₀ : Pc} (hi : s.worker i = pc₀)
    (hheld : pc.held = pc₀.held) (hlocks : pc.locks = false) (hended : pc₀ ≠ .ended)
    (howner : s.owner = some i ∨ owner = s.owner) :
    Inv (({ s with owner := owner } : ThreadPool ι).setPc i pc) := by
  have hnot : pc.locks ≠ true := Bool.eq_false_iff.mp hlocks
  refine hs.move (hi.symm ▸ hheld) (Or.inr howner) (fun h => absurd h hnot) ?_ ?_ (hi ▸ hended)
  · rintro rfl
    exact absurd rfl hnot
  · rintro rfl
    exact absurd rfl hnot

/-! ## One step -/

lemma Inv.notifyOne (hs : Inv s) {target : Option ι} (h : s.step (.notifyOne target) = some s') :
    Inv s' := by
  have hfewer : Inv ({ s with notifies := s.notifies - 1 } : ThreadPool ι) := { hs with }
  cases target with
  | none =>
    simp only [step] at h
    split_ifs at h with hnone hasleep
    cases h
    exact hfewer
  | some i =>
    simp only [step] at h
    split_ifs at h with hnone hi
    cases h
    exact hfewer.moveOff hi rfl rfl Pc.noConfusion (Or.inr rfl)

lemma Inv.evaluate (hs : Inv s) (h : s.step (.evaluate i) = some s') : Inv s' := by
  simp only [step] at h
  split at h
  · next hi =>
    cases h
    have howner := hs.owner i (by rw [hi]; rfl)
    split
    · next hpredicate =>
      refine hs.move (hi ▸ rfl) (Or.inr (Or.inr rfl)) (fun _ => howner) (fun _ => ?_)
        Pc.noConfusion (hi ▸ Pc.noConfusion)
      simpa only [Bool.or_eq_true, Bool.not_eq_true', List.isEmpty_eq_false_iff] using hpredicate
    · exact hs.move (hi ▸ rfl) (Or.inr (Or.inr rfl)) (fun _ => howner) Pc.noConfusion
        Pc.noConfusion (hi ▸ Pc.noConfusion)
  · cases h

lemma Inv.testExit (hs : Inv s) (h : s.step (.testExit i) = some s') : Inv s' := by
  simp only [step] at h
  split_ifs at h with hi hexit
  · cases h
    exact hs.moveOff hi rfl rfl Pc.noConfusion (Or.inl (hs.owner i (by rw [hi]; rfl)))
  · cases h
    have howner := hs.owner i (by rw [hi]; rfl)
    refine hs.move (hi ▸ rfl) (Or.inr (Or.inr rfl)) (fun _ => howner) Pc.noConfusion
      (fun _ hnil => hexit ?_) (hi ▸ Pc.noConfusion)
    -- what was found before is still so, and the queue can only be empty where `mIsDone` is set
    have hdone := (hs.exitTest i hi).resolve_right (not_not_intro hnil)
    rw [hdone, hnil]
    rfl

lemma Inv.take_step (hs : Inv s) (h : s.step (.take i) = some s') : Inv s' := by
  simp only [step] at h
  split_ifs at h with hi
  split at h
  · next hnil => exact absurd hnil (hs.taking i hi)
  · next t rest htasks =>
    cases h
    exact hs.take hi htasks

lemma preserves_inv : Preserves (step (ι := ι)) (fun _ _ => True) Inv := by
  intro s a s' hs _ h
  cases a with
  | push =>
    simp only [step] at h
    split_ifs at h with hcan
    cases h
    exact hs.push hcan.2
  | notifyOne i => exact hs.notifyOne h
  | setDone =>
    simp only [step] at h
    split_ifs at h with hcan
    cases h
    exact { hs with
      exitTest := fun _ _ => Or.inl rfl
      joined := fun h => by rcases h with h | h <;> cases h
      drained := fun h => by cases h }
  | notifyAll =>
    simp only [step] at h
    split_ifs at h with hcan
    cases h
    exact hs.notifyAll
  | join =>
    simp only [step] at h
    split_ifs at h with hcan
    cases h
    exact { hs with joined := fun _ => hcan.2, drained := fun h => by cases h }
  | destroyRest =>
    simp only [step] at h
    split_ifs at h with hcan
    cases h
    exact hs.destroyRest hcan.1
  | testLoop i =>
    simp only [step] at h
    split_ifs at h with hi hdone
    · cases h
      exact hs.moveOff hi rfl rfl Pc.noConfusion (Or.inr rfl)
    · cases h
      exact hs.moveOff hi rfl rfl Pc.noConfusion (Or.inr rfl)
  | lock i =>
    simp only [step] at h
    split_ifs at h with hcan
    cases h
    exact hs.move (hcan.1 ▸ rfl) (Or.inl hcan.2) (fun _ => rfl) Pc.noConfusion Pc.noConfusion
      (hcan.1 ▸ Pc.noConfusion)
  | evaluate i => exact hs.evaluate h
  | sleep i =>
    simp only [step] at h
    split_ifs at h with hi
    cases h
    exact hs.moveOff hi rfl rfl Pc.noConfusion (Or.inl (hs.owner i (by rw [hi]; rfl)))
  | wakeUp i =>
    simp only [step] at h
    split_ifs at h with hi
    cases h
    exact hs.moveOff hi rfl rfl Pc.noConfusion (Or.inr rfl)
  | testExit i => exact hs.testExit h
  | take i => exact hs.take_step h
  | resume i =>
    simp only [step] at h
    split at h
    · next t hi =>
      cases h
      exact hs.resume hi
    · cases h
  | suspend i =>
    simp only [step] at h
    split_ifs at h with hi
    cases h
    exact hs.moveOff hi rfl rfl Pc.noConfusion (Or.inr rfl)

/-! ## Who sleeps -/

/-- Once the destructor has notified, no worker sleeps or is going to: each finds that the flag is
set. -/
structure Roused (s : ThreadPool ι) : Prop where
  isDone : s.phase ≠ .notStarted → s.isDone = true
  awake : s.phase.notified = true → ∀ i, (s.worker i).drowsy = false

omit [Fintype ι] [DecidableEq ι] in
lemma Roused.isAwake (hs : Roused s) : s.Awake := by
  intro hphase _ i hi
  have hawake := hs.awake (hphase ▸ rfl) i
  rw [hi] at hawake
  cases hawake

omit [Fintype ι] [DecidableEq ι] in
lemma Roused.isDone_of_notified (hs : Roused s) (h : s.phase.notified = true) :
    s.isDone = true := by
  refine hs.isDone fun hphase => ?_
  rw [hphase] at h
  cases h

omit [Fintype ι] [DecidableEq ι] in
/-- The destructor goes on after it has notified. -/
lemma Roused.of_notified (hs : Roused s) (hnotified : s.phase.notified = true)
    (hdone : s'.isDone = s.isDone) (hworker : s'.worker = s.worker) : Roused s' := by
  refine ⟨fun _ => hdone.trans (hs.isDone_of_notified hnotified), fun _ i => ?_⟩
  rw [hworker]
  exact hs.awake hnotified i

omit [Fintype ι] in
/-- A worker that goes on, but not to sleep once the destructor has notified. -/
lemma Roused.of_update (hs : Roused s) (hdone : s'.isDone = s.isDone) (hphase : s'.phase = s.phase)
    (hworker : s'.worker = Function.update s.worker i pc)
    (hpc : s.phase.notified = true → pc.drowsy = false) : Roused s' := by
  refine ⟨fun h => ?_, fun h j => ?_⟩
  · rw [hphase] at h
    rw [hdone]
    exact hs.isDone h
  · rw [hphase] at h
    rw [hworker]
    exact (Function.forall_update_iff s.worker fun _ q => q.drowsy = false).mpr
      ⟨hpc h, fun j _ => hs.awake h j⟩ j

lemma Roused.notifyOne (hs : Roused s) {target : Option ι}
    (h : s.step (.notifyOne target) = some s') : Roused s' := by
  cases target with
  | none =>
    simp only [step] at h
    split_ifs at h with hnone hasleep
    cases h
    exact ⟨hs.isDone, hs.awake⟩
  | some i =>
    simp only [step] at h
    split_ifs at h with hnone hi
    cases h
    exact hs.of_update rfl rfl rfl fun _ => rfl

lemma Roused.evaluate (hs : Roused s) (h : s.step (.evaluate i) = some s') : Roused s' := by
  simp only [step] at h
  split at h
  · cases h
    refine hs.of_update rfl rfl rfl fun hnotified => ?_
    rw [hs.isDone_of_notified hnotified]
    rfl
  · cases h

omit [Fintype ι] [DecidableEq ι] in
lemma Roused.notifyAll (hs : Roused s) (hphase : s.phase = .flagged)
    (hbetween : ∀ i, s.worker i ≠ .toSleep) :
    Roused ({ s with worker := fun j => (s.worker j).wake, phase := .joining } : ThreadPool ι) := by
  refine ⟨fun _ => hs.isDone (by rw [hphase]; exact Phase.noConfusion), fun _ i => ?_⟩
  show (s.worker i).wake.drowsy = false
  cases hi : s.worker i with
  | toSleep => exact absurd hi (hbetween i)
  | _ => rfl

lemma preserves_roused : Preserves (step (ι := ι)) NobodyBetween Roused := by
  intro s a s' hs hbetween h
  cases a with
  | push =>
    simp only [step] at h
    split_ifs at h with hcan
    cases h
    exact ⟨hs.isDone, hs.awake⟩
  | notifyOne target => exact hs.notifyOne h
  | setDone =>
    simp only [step] at h
    split_ifs at h with hphase
    cases h
    exact ⟨fun _ => rfl, fun h => absurd h Bool.false_ne_true⟩
  | notifyAll =>
    simp only [step] at h
    split_ifs at h with hphase
    cases h
    exact hs.notifyAll hphase hbetween
  | join =>
    simp only [step] at h
    split_ifs at h with hcan
    cases h
    exact hs.of_notified (by rw [hcan.1]; rfl) rfl rfl
  | destroyRest =>
    simp only [step] at h
    split_ifs at h with hcan
    cases h
    exact hs.of_notified (by rw [hcan.1]; rfl) rfl rfl
  | testLoop i =>
    simp only [step] at h
    split_ifs at h with hi hdone
    · cases h
      exact hs.of_update rfl rfl rfl fun _ => rfl
    · cases h
      exact hs.of_update rfl rfl rfl fun _ => rfl
  | lock i =>
    simp only [step] at h
    split_ifs at h with hcan
    cases h
    exact hs.of_update rfl rfl rfl fun _ => rfl
  | evaluate i => exact hs.evaluate h
  | sleep i =>
    simp only [step] at h
    split_ifs at h with hi
    cases h
    refine hs.of_update rfl rfl rfl fun hnotified => ?_
    have hawake := hs.awake hnotified i
    rw [hi] at hawake
    cases hawake
  | wakeUp i =>
    simp only [step] at h
    split_ifs at h with hi
    cases h
    exact hs.of_update rfl rfl rfl fun _ => rfl
  | testExit i =>
    simp only [step] at h
    split_ifs at h with hi hexit
    · cases h
      exact hs.of_update rfl rfl rfl fun _ => rfl
    · cases h
      exact hs.of_update rfl rfl rfl fun _ => rfl
  | take i =>
    simp only [step] at h
    split_ifs at h with hi
    split at h
    · cases h
      exact ⟨hs.isDone, hs.awake⟩
    · cases h
      exact hs.of_update rfl rfl rfl fun _ => rfl
  | resume i =>
    simp only [step] at h
    split at h
    · cases h
      exact hs.of_update rfl rfl rfl fun _ => rfl
    · cases h
  | suspend i =>
    simp only [step] at h
    split_ifs at h with hi
    cases h
    exact hs.of_update rfl rfl rfl fun _ => rfl

/-! ## Runs -/

omit [DecidableEq ι] in
lemma inv_new : Inv (new : ThreadPool ι) where
  conserved := by
    have hheld : ∑ i, ((new : ThreadPool ι).worker i).held = 0 := Finset.sum_eq_zero fun _ _ => rfl
    rw [hheld]
    rfl
  owner := fun _ h => by cases h
  exitTest := fun _ h => by cases h
  taking := fun _ h => by cases h
  joined := fun h => by rcases h with h | h <;> cases h
  drained := fun h => by cases h
  fault := rfl

/-- **Every handle is treated once.**  For any number of workers and all orders of their steps,
those of `Schedule` and those of the destructor. -/
theorem throughout_treatedOnce (as : List (Action ι)) :
    Throughout step TreatedOnce (new : ThreadPool ι) as :=
  preserves_inv.throughout (fun _ hs => hs.treatedOnce) inv_new
    (along_of_forall (fun _ _ => trivial) _ _)

/-- **When nobody sleeps for ever.**  In every run in which no worker is between the predicate
and its sleep when the destructor notifies, no worker sleeps behind that while no notification is
to come. -/
theorem throughout_awake (as : List (Action ι)) (hbetween : Along step NobodyBetween new as) :
    Throughout step Awake (new : ThreadPool ι) as :=
  preserves_roused.throughout (fun _ hs => hs.isAwake)
    ⟨fun h => absurd rfl h, fun h => absurd h Bool.false_ne_true⟩ hbetween

/-- A worker that sleeps when the destructor notifies wakes up and ends. -/
theorem throughout_awake_one :
    Throughout step Awake (new : ThreadPool Unit)
      [.testLoop (), .lock (), .evaluate (), .sleep (), .setDone, .notifyAll, .lock (),
        .evaluate (), .testExit (), .join, .destroyRest] :=
  throughout_awake _ (by decide)

/-- A worker that has found nothing to do sleeps after the destructor has notified. -/
theorem not_awake_one :
    ¬ Throughout step Awake (new : ThreadPool Unit)
      [.testLoop (), .lock (), .evaluate (), .setDone, .notifyAll, .sleep ()] := by
  decide

end ThreadPool

end ClientServer.TestThreadpool
