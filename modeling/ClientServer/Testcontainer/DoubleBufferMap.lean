import ClientServer.Library.Runs
import Mathlib.Data.Fin.Basic
import Mathlib.Logic.Function.Basic
import Mathlib.Tactic.Common

/-!
# `testcontainer/main.cpp`: the class `DoubleBufferMap`

`update` copies a map into the buffer that is not active and makes it the active one, under a
mutex; `find` loads the index of the active buffer and looks into it without the mutex, and what it
returns points into that buffer.  Any number of threads are in either, and each load, store, lookup
and each end of the copy is a step.  While a buffer is being assigned it has no contents.

Whatever the order of the steps, the writers exclude each other and the active buffer is whole
(`Exclusive`).  A reader may still be in a buffer that was active when it loaded the index: it goes
undisturbed until a second `update` begins to copy.  So all readers see what was published last
when they loaded the index, and nothing is copied over them, in exactly the runs in which no copy
begins while a reader is inside whose buffer has been replaced (`throughout_consistent_iff`).
-/

namespace ClientServer.Testcontainer

/-- What an `unordered_map` holds. -/
abbrev MapType (K V : Type*) := K → Option V

/-- Where a thread is in `update(new_map)`. -/
inductive Updating (M : Type*)
  | idle
  /-- It has the mutex. -/
  | locked (newMap : M)
  /-- It has computed `write_index`. -/
  | indexed (writeIndex : Fin 2) (newMap : M)
  /-- In the assignment to the buffer. -/
  | copying (writeIndex : Fin 2) (newMap : M)
  /-- Before `store`. -/
  | copied (writeIndex : Fin 2) (newMap : M)
  /-- Before it gives the mutex up. -/
  | stored

/-- Whether the thread holds the mutex. -/
def Updating.locks {M : Type*} : Updating M → Bool
  | .idle => false
  | .locked _ | .indexed .. | .copying .. | .copied .. | .stored => true

/-- The buffer that it writes is not the active one, and has the new contents in the end. -/
def Updating.Aims {M : Type*} (buffers : Fin 2 → Option M) (active : Fin 2) : Updating M → Prop
  | .indexed i _ | .copying i _ => i ≠ active
  | .copied i newMap => i ≠ active ∧ buffers i = some newMap
  | .idle | .locked _ | .stored => True

/-- Whether the copy has begun and is not active yet. -/
def Updating.begun {M : Type*} : Updating M → Bool
  | .copying .. | .copied .. => true
  | .idle | .locked _ | .indexed .. | .stored => false

/-- Where a thread is in `find(id)`. -/
inductive Finding (K V : Type*)
  | idle
  /-- It has the reference `active_map`. -/
  | loaded (i : Fin 2) (id : K)
  /-- It uses what was returned. -/
  | found (i : Fin 2) (id : K) (result : Option V)

/-- The buffer that the thread is in. -/
def Finding.buffer {K V : Type*} : Finding K V → Option (Fin 2)
  | .idle => none
  | .loaded i _ | .found i _ _ => some i

/-- The buffer holds what the thread is to see, and what it found is there. -/
def Finding.Sees {K V : Type*} (buffers : Fin 2 → Option (MapType K V)) (seen : MapType K V) :
    Finding K V → Prop
  | .idle => True
  | .loaded i _ => buffers i = some seen
  | .found i id result => buffers i = some seen ∧ result = seen id

/-- Only the contents of its own buffer matter to a reader. -/
lemma Finding.Sees.congr {K V : Type*} {f : Finding K V}
    {buffers buffers' : Fin 2 → Option (MapType K V)} {seen : MapType K V}
    (h : f.Sees buffers seen) (hsame : ∀ i, f.buffer = some i → buffers' i = buffers i) :
    f.Sees buffers' seen := by
  cases f with
  | idle => trivial
  | loaded i id => exact (hsame i rfl).trans h
  | found i id result => exact ⟨(hsame i rfl).trans h.1, h.2⟩

/-- The fields of class `DoubleBufferMap`, the threads that are in it, and a record of what was
published.  `ω` are the threads that update, `ρ` those that look up. -/
structure DoubleBufferMap (ω ρ K V : Type*) where
  /-- `none` while the buffer is being assigned. -/
  buffers : Fin 2 → Option (MapType K V)
  currentReadBuffer : Fin 2
  /-- The thread that holds `write_mtx_`. -/
  owner : Option ω
  writer : ω → Updating (MapType K V)
  reader : ρ → Finding K V
  /-- A reader looked into a buffer that was being assigned. -/
  raced : Bool
  /-- The map that was made active last. -/
  published : MapType K V
  /-- What was published when the reader loaded the index. -/
  seen : ρ → MapType K V
  /-- Another map was published since. -/
  replaced : ρ → Bool

namespace DoubleBufferMap

variable {ω ρ K V : Type*}

/-- What happens. -/
inductive Action (ω ρ K V : Type*)
  | lock (w : ω) (newMap : MapType K V)
  | loadIndex (w : ω)
  | beginCopy (w : ω)
  | endCopy (w : ω)
  | store (w : ω)
  | unlock (w : ω)
  | load (r : ρ) (id : K)
  | lookup (r : ρ)
  /-- The reader does not use the result any more. -/
  | release (r : ρ)

/-- A new map, with nothing in either buffer. -/
def new : DoubleBufferMap ω ρ K V :=
  ⟨fun _ => some fun _ => none, 0, none, fun _ => .idle, fun _ => .idle, false, fun _ => none,
    fun _ _ => none, fun _ => false⟩

section Step

variable [DecidableEq ω] [DecidableEq ρ]

/-- The thread goes on in `update`. -/
def setWriter (s : DoubleBufferMap ω ρ K V) (w : ω) (u : Updating (MapType K V)) :
    DoubleBufferMap ω ρ K V :=
  { s with writer := Function.update s.writer w u }

/-- The thread goes on in `find`. -/
def setReader (s : DoubleBufferMap ω ρ K V) (r : ρ) (f : Finding K V) : DoubleBufferMap ω ρ K V :=
  { s with reader := Function.update s.reader r f }

/-- One step, where it can be taken. -/
def step (s : DoubleBufferMap ω ρ K V) : Action ω ρ K V → Option (DoubleBufferMap ω ρ K V)
  | .lock w newMap =>
    match s.writer w, s.owner with
    | .idle, none => some ({ s with owner := some w }.setWriter w (.locked newMap))
    | _, _ => none
  | .loadIndex w =>
    match s.writer w with
    | .locked newMap => some (s.setWriter w (.indexed (1 - s.currentReadBuffer) newMap))
    | _ => none
  | .beginCopy w =>
    match s.writer w with
    | .indexed i newMap =>
      some ({ s with buffers := Function.update s.buffers i none }.setWriter w
        (.copying i newMap))
    | _ => none
  | .endCopy w =>
    match s.writer w with
    | .copying i newMap =>
      some ({ s with buffers := Function.update s.buffers i (some newMap) }.setWriter w
        (.copied i newMap))
    | _ => none
  | .store w =>
    match s.writer w with
    | .copied i newMap =>
      some ({ s with
        currentReadBuffer := i
        published := newMap
        replaced := fun _ => true }.setWriter w .stored)
    | _ => none
  | .unlock w =>
    match s.writer w with
    | .stored => some ({ s with owner := none }.setWriter w .idle)
    | _ => none
  | .load r id =>
    match s.reader r with
    | .idle =>
      some ({ s with
        seen := Function.update s.seen r s.published
        replaced := Function.update s.replaced r false }.setReader r
          (.loaded s.currentReadBuffer id))
    | _ => none
  | .lookup r =>
    match s.reader r with
    | .loaded i id =>
      match s.buffers i with
      | some activeMap => some (s.setReader r (.found i id (activeMap id)))
      | none => some { s with raced := true }
    | _ => none
  | .release r =>
    match s.reader r with
    | .found .. => some (s.setReader r .idle)
    | _ => none

end Step

/-- Every reader's buffer holds what was published last when it loaded the index, and what it
found is what stands there. -/
structure Consistent (s : DoubleBufferMap ω ρ K V) : Prop where
  sees : ∀ r, (s.reader r).Sees s.buffers (s.seen r)
  raced : s.raced = false

/-- No copy begins while a reader is inside whose buffer has been replaced. -/
def NoneOvertaken (s : DoubleBufferMap ω ρ K V) : Action ω ρ K V → Prop
  | .beginCopy _ => ∀ r i, (s.reader r).buffer = some i → s.replaced r = false
  | _ => True

/-! ## The writers -/

/-- The writers exclude each other, the active buffer holds what was published last, and no writer
works on it. -/
structure Exclusive (s : DoubleBufferMap ω ρ K V) : Prop where
  owner : ∀ w, (s.writer w).locks = true → s.owner = some w
  active : s.buffers s.currentReadBuffer = some s.published
  aims : ∀ w, (s.writer w).Aims s.buffers s.currentReadBuffer

lemma one_sub_ne (i : Fin 2) : 1 - i ≠ i := by
  decide +revert

/-- Of the two buffers one is active. -/
lemma eq_of_ne_active {i j active : Fin 2} (hi : i ≠ active) (hj : j ≠ active) : i = j := by
  decide +revert

variable {s s' : DoubleBufferMap ω ρ K V} {w : ω} {r : ρ} {u : Updating (MapType K V)}

lemma Exclusive.idle_of_ne (hs : Exclusive s) (hw : (s.writer w).locks = true) {w' : ω}
    (hne : w' ≠ w) : s.writer w' = .idle := by
  cases hw' : s.writer w' with
  | idle => rfl
  | _ =>
    have howner := hs.owner w' (by rw [hw']; rfl)
    rw [hs.owner w hw, Option.some_inj] at howner
    exact absurd howner.symm hne

variable [DecidableEq ω]

/-- What holds of the writers after one of them went on. -/
lemma forall_setWriter {P : ω → Updating (MapType K V) → Prop} (hw : P w u)
    (hother : ∀ w', w' ≠ w → P w' (s.writer w')) : ∀ w', P w' ((s.setWriter w u).writer w') :=
  (Function.forall_update_iff s.writer P).mpr ⟨hw, hother⟩

/-- The writer that holds the mutex goes on, and leaves or keeps it. -/
lemma Exclusive.move (hs : Exclusive s) (hw : (s.writer w).locks = true)
    {buffers : Fin 2 → Option (MapType K V)} {active : Fin 2} {published : MapType K V}
    {owner : Option ω} {replaced : ρ → Bool} (howner : u.locks = true → owner = some w)
    (hactive : buffers active = some published) (haims : u.Aims buffers active) :
    Exclusive (({ s with
      buffers := buffers, currentReadBuffer := active, published := published, owner := owner,
      replaced := replaced } : DoubleBufferMap ω ρ K V).setWriter w u) where
  owner := by
    refine forall_setWriter (P := fun w' v => v.locks = true → owner = some w') howner ?_
    intro w' hne hlocks
    rw [hs.idle_of_ne hw hne] at hlocks
    cases hlocks
  active := hactive
  aims := by
    refine forall_setWriter (P := fun _ v => v.Aims buffers active) haims ?_
    intro w' hne
    rw [hs.idle_of_ne hw hne]
    trivial

omit [DecidableEq ω] in
/-- A buffer that is not active changes. -/
lemma Exclusive.update_active (hs : Exclusive s) {i : Fin 2} (hi : i ≠ s.currentReadBuffer)
    (contents : Option (MapType K V)) :
    Function.update s.buffers i contents s.currentReadBuffer = some s.published := by
  rw [Function.update_of_ne hi.symm, hs.active]

lemma Exclusive.lock (hs : Exclusive s) (hnone : s.owner = none) (newMap : MapType K V) :
    Exclusive (({ s with owner := some w } : DoubleBufferMap ω ρ K V).setWriter w
      (.locked newMap)) where
  owner := by
    refine forall_setWriter (P := fun w' v => v.locks = true → some w = some w') (fun _ => rfl) ?_
    intro w' _ hlocks
    rw [hs.owner w' hlocks] at hnone
    cases hnone
  active := hs.active
  aims := forall_setWriter (P := fun _ v => v.Aims s.buffers s.currentReadBuffer) trivial
    fun w' _ => hs.aims w'

variable [DecidableEq ρ]

lemma preserves_exclusive :
    Preserves (step (ω := ω) (ρ := ρ) (K := K) (V := V)) (fun _ _ => True) Exclusive := by
  intro s a s' hs _ h
  cases a with
  | lock w newMap =>
    simp only [step] at h
    split at h
    · next hnone =>
      cases h
      exact hs.lock hnone newMap
    · cases h
  | loadIndex w =>
    simp only [step] at h
    split at h
    · next newMap hw =>
      cases h
      have hlocks : (s.writer w).locks = true := by rw [hw]; rfl
      exact hs.move hlocks (fun _ => hs.owner w hlocks) hs.active (one_sub_ne _)
    · cases h
  | beginCopy w =>
    simp only [step] at h
    split at h
    · next i newMap hw =>
      cases h
      have hlocks : (s.writer w).locks = true := by rw [hw]; rfl
      have haims := hs.aims w
      rw [hw] at haims
      exact hs.move hlocks (fun _ => hs.owner w hlocks) (hs.update_active haims none) haims
    · cases h
  | endCopy w =>
    simp only [step] at h
    split at h
    · next i newMap hw =>
      cases h
      have hlocks : (s.writer w).locks = true := by rw [hw]; rfl
      have haims := hs.aims w
      rw [hw] at haims
      exact hs.move hlocks (fun _ => hs.owner w hlocks) (hs.update_active haims (some newMap))
        ⟨haims, Function.update_self _ _ _⟩
    · cases h
  | store w =>
    simp only [step] at h
    split at h
    · next i newMap hw =>
      cases h
      have hlocks : (s.writer w).locks = true := by rw [hw]; rfl
      have haims := hs.aims w
      rw [hw] at haims
      exact hs.move hlocks (fun _ => hs.owner w hlocks) haims.2 trivial
    · cases h
  | unlock w =>
    simp only [step] at h
    split at h
    · next hw =>
      cases h
      exact hs.move (by rw [hw]; rfl) (fun h => by cases h) hs.active trivial
    · cases h
  | load r id =>
    simp only [step] at h
    split at h
    · cases h
      exact ⟨hs.owner, hs.active, hs.aims⟩
    · cases h
  | lookup r =>
    simp only [step] at h
    split at h
    · split at h
      · cases h
        exact ⟨hs.owner, hs.active, hs.aims⟩
      · cases h
        exact ⟨hs.owner, hs.active, hs.aims⟩
    · cases h
  | release r =>
    simp only [step] at h
    split at h
    · cases h
      exact ⟨hs.owner, hs.active, hs.aims⟩
    · cases h

/-! ## The readers -/

/-- The readers see what they are to see; a reader's buffer is the active one until it is replaced,
and while a copy is under way no reader's buffer has been replaced. -/
structure Undisturbed (s : DoubleBufferMap ω ρ K V) : Prop extends Consistent s where
  replaced_iff : ∀ r i, (s.reader r).buffer = some i →
    (s.replaced r = true ↔ i ≠ s.currentReadBuffer)
  begun : ∀ w, (s.writer w).begun = true → ∀ r i, (s.reader r).buffer = some i →
    s.replaced r = false

omit [DecidableEq ω] [DecidableEq ρ] in
/-- A reader whose buffer has not been replaced is in the active one. -/
lemma Undisturbed.eq_active (hs : Undisturbed s) {i : Fin 2} (hi : (s.reader r).buffer = some i)
    (hreplaced : s.replaced r = false) : i = s.currentReadBuffer := by
  by_contra hne
  rw [(hs.replaced_iff r i hi).mpr hne] at hreplaced
  cases hreplaced

omit [DecidableEq ρ] in
/-- A writer goes on and changes no buffer. -/
lemma Undisturbed.move (hs : Undisturbed s) (owner : Option ω)
    (hu : u.begun = true → ∀ r i, (s.reader r).buffer = some i → s.replaced r = false) :
    Undisturbed (({ s with owner := owner } : DoubleBufferMap ω ρ K V).setWriter w u) where
  sees := hs.sees
  raced := hs.raced
  replaced_iff := hs.replaced_iff
  begun := forall_setWriter
    (P := fun _ v => v.begun = true → ∀ r i, (s.reader r).buffer = some i → s.replaced r = false)
    hu fun w' _ => hs.begun w'

omit [DecidableEq ρ] in
/-- A writer changes the buffer that is not active, and no reader is in it. -/
lemma Undisturbed.write (hs : Undisturbed s) {i : Fin 2} (hi : i ≠ s.currentReadBuffer)
    (hnone : ∀ r j, (s.reader r).buffer = some j → s.replaced r = false)
    (contents : Option (MapType K V)) :
    Undisturbed (({ s with buffers := Function.update s.buffers i contents } :
      DoubleBufferMap ω ρ K V).setWriter w u) where
  sees := by
    intro r
    refine (hs.sees r).congr fun j hj => ?_
    have hactive := hs.eq_active hj (hnone r j hj)
    exact Function.update_of_ne (by rw [hactive]; exact hi.symm) _ _
  raced := hs.raced
  replaced_iff := hs.replaced_iff
  begun := fun _ _ => hnone

omit [DecidableEq ω] in
/-- What holds of the readers after one of them went on. -/
lemma forall_setReader {f : Finding K V} {P : ρ → Finding K V → Prop} (hr : P r f)
    (hother : ∀ r', r' ≠ r → P r' (s.reader r')) : ∀ r', P r' ((s.setReader r f).reader r') :=
  (Function.forall_update_iff s.reader P).mpr ⟨hr, hother⟩

omit [DecidableEq ω] in
/-- A reader goes on in its buffer, or leaves it. -/
lemma Undisturbed.read (hs : Undisturbed s) {f : Finding K V}
    (hsees : f.Sees s.buffers (s.seen r))
    (hbuffer : ∀ i, f.buffer = some i → (s.reader r).buffer = some i) :
    Undisturbed (s.setReader r f) where
  sees := forall_setReader (P := fun r' g => g.Sees s.buffers (s.seen r')) hsees
    fun r' _ => hs.sees r'
  raced := hs.raced
  replaced_iff := forall_setReader (P := fun r' g => ∀ i, g.buffer = some i →
      (s.replaced r' = true ↔ i ≠ s.currentReadBuffer))
    (fun i hi => hs.replaced_iff r i (hbuffer i hi)) fun r' _ => hs.replaced_iff r'
  begun := fun w hw => forall_setReader
    (P := fun r' g => ∀ i, g.buffer = some i → s.replaced r' = false)
    (fun i hi => hs.begun w hw r i (hbuffer i hi)) fun r' _ => hs.begun w hw r'

omit [DecidableEq ω] in
/-- A reader loads the index. -/
lemma Undisturbed.load (hs : Undisturbed s) (hactive : s.buffers s.currentReadBuffer =
    some s.published) (id : K) :
    Undisturbed (({ s with
      seen := Function.update s.seen r s.published
      replaced := Function.update s.replaced r false } : DoubleBufferMap ω ρ K V).setReader r
        (.loaded s.currentReadBuffer id)) where
  sees := by
    intro r'
    by_cases hr : r' = r
    · subst hr
      simp only [setReader, Function.update_self]
      exact hactive
    · simp only [setReader, Function.update_of_ne hr]
      exact hs.sees r'
  raced := hs.raced
  replaced_iff := by
    intro r' i hi
    by_cases hr : r' = r
    · subst hr
      simp only [setReader, Function.update_self] at hi ⊢
      cases hi
      exact iff_of_false Bool.false_ne_true fun h => h rfl
    · simp only [setReader, Function.update_of_ne hr] at hi ⊢
      exact hs.replaced_iff r' i hi
  begun := by
    intro w hw r' i hi
    by_cases hr : r' = r
    · subst hr
      simp only [setReader, Function.update_self]
    · simp only [setReader, Function.update_of_ne hr] at hi ⊢
      exact hs.begun w hw r' i hi

omit [DecidableEq ρ] in
/-- A writer makes its buffer the active one. -/
lemma Undisturbed.store (hs : Undisturbed s) (he : Exclusive s) {i : Fin 2}
    {newMap : MapType K V} (hw : s.writer w = .copied i newMap) :
    Undisturbed (({ s with
      currentReadBuffer := i
      published := newMap
      replaced := fun _ => true } : DoubleBufferMap ω ρ K V).setWriter w .stored) where
  sees := hs.sees
  raced := hs.raced
  replaced_iff := by
    intro r j hj
    have haims := he.aims w
    rw [hw] at haims
    have hactive := hs.eq_active hj (hs.begun w (by rw [hw]; rfl) r j hj)
    refine iff_of_true rfl ?_
    show j ≠ i
    rw [hactive]
    exact haims.1.symm
  begun := by
    refine forall_setWriter
      (P := fun _ v => v.begun = true → ∀ r i, (s.reader r).buffer = some i → true = false)
      (fun h => by cases h) fun w' hne hbegun => ?_
    rw [he.idle_of_ne (by rw [hw]; rfl) hne] at hbegun
    cases hbegun

lemma preserves_undisturbed : Preserves (step (ω := ω) (ρ := ρ) (K := K) (V := V))
    NoneOvertaken fun s => Exclusive s ∧ Undisturbed s := by
  rintro s a s' ⟨he, hs⟩ hC h
  refine ⟨preserves_exclusive s a s' he trivial h, ?_⟩
  cases a with
  | lock w newMap =>
    simp only [step] at h
    split at h
    · cases h
      exact hs.move (some w) fun h => by cases h
    · cases h
  | loadIndex w =>
    simp only [step] at h
    split at h
    · cases h
      exact hs.move s.owner fun h => by cases h
    · cases h
  | beginCopy w =>
    simp only [step] at h
    split at h
    · next i newMap hw =>
      cases h
      have haims := he.aims w
      rw [hw] at haims
      exact hs.write haims hC none
    · cases h
  | endCopy w =>
    simp only [step] at h
    split at h
    · next i newMap hw =>
      cases h
      have haims := he.aims w
      rw [hw] at haims
      exact hs.write haims (hs.begun w (by rw [hw]; rfl)) (some newMap)
    · cases h
  | store w =>
    simp only [step] at h
    split at h
    · next i newMap hw =>
      cases h
      exact hs.store he hw
    · cases h
  | unlock w =>
    simp only [step] at h
    split at h
    · cases h
      exact hs.move none fun h => by cases h
    · cases h
  | load r id =>
    simp only [step] at h
    split at h
    · cases h
      exact hs.load he.active id
    · cases h
  | lookup r =>
    simp only [step] at h
    split at h
    · next i id hr =>
      have hsees := hs.sees r
      rw [hr] at hsees
      rw [show s.buffers i = some (s.seen r) from hsees] at h
      cases h
      refine hs.read ⟨hsees, rfl⟩ fun j hj => ?_
      rw [hr]
      exact hj
    · cases h
  | release r =>
    simp only [step] at h
    split at h
    · cases h
      exact hs.read trivial fun _ hi => by cases hi
    · cases h

/-- A copy that begins while a reader is inside whose buffer has been replaced goes over it. -/
lemma noneOvertaken_of_consistent {a : Action ω ρ K V} (he : Exclusive s) (hs : Undisturbed s)
    (h : s.step a = some s') (hconsistent : s'.Consistent) : s.NoneOvertaken a := by
  cases a with
  | beginCopy w =>
    intro r j hj
    simp only [step] at h
    split at h
    · next i newMap hw =>
      cases h
      have haims := he.aims w
      rw [hw] at haims
      by_contra hreplaced
      rw [Bool.not_eq_false] at hreplaced
      obtain rfl : j = i := eq_of_ne_active ((hs.replaced_iff r j hj).mp hreplaced) haims
      have hsees := hconsistent.sees r
      have hnone : ∀ f : Finding K V, f.buffer = some j →
          ¬ f.Sees (Function.update s.buffers j none) (s.seen r) := by
        intro f hf hsees
        cases f with
        | idle => cases hf
        | loaded i id =>
          cases hf
          rw [Finding.Sees, Function.update_self] at hsees
          cases hsees
        | found i id result =>
          cases hf
          rw [Finding.Sees, Function.update_self] at hsees
          cases hsees.1
      exact hnone _ hj hsees
    · cases h
  | _ => trivial

/-! ## Runs -/

omit [DecidableEq ω] [DecidableEq ρ] in
lemma exclusive_new : Exclusive (new : DoubleBufferMap ω ρ K V) where
  owner := fun _ h => by cases h
  active := rfl
  aims := fun _ => trivial

omit [DecidableEq ω] [DecidableEq ρ] in
lemma undisturbed_new : Undisturbed (new : DoubleBufferMap ω ρ K V) where
  sees := fun _ => trivial
  raced := rfl
  replaced_iff := fun _ _ h => by cases h
  begun := fun _ h => by cases h

/-- **The active buffer is always whole.**  In every run of any number of readers and writers at
most one writer is in `update` behind its lock, and the buffer that the index names holds what was
published last and is not being assigned. -/
theorem throughout_exclusive (as : List (Action ω ρ K V)) :
    Throughout step Exclusive (new : DoubleBufferMap ω ρ K V) as :=
  preserves_exclusive.throughout (fun _ hs => hs) exclusive_new
    (along_of_forall (fun _ _ => trivial) _ _)

/-- **When a lookup is right.**  Every reader sees what was published last when it loaded the
index, for as long as it uses the result, in exactly the runs in which no copy begins while a
reader is inside whose buffer has been replaced. -/
theorem throughout_consistent_iff (as : List (Action ω ρ K V)) :
    Throughout step Consistent (new : DoubleBufferMap ω ρ K V) as ↔
      Along step NoneOvertaken new as :=
  preserves_undisturbed.throughout_iff (fun _ hs => hs.2.toConsistent)
    (fun _ _ _ hs h hQ => noneOvertaken_of_consistent hs.1 hs.2 h hQ)
    ⟨exclusive_new, undisturbed_new⟩

end DoubleBufferMap

end ClientServer.Testcontainer
