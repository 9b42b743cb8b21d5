import ClientServer.Library.Indexes
import ClientServer.Library.Runs
import Mathlib.Algebra.Group.Nat.Defs
import Mathlib.Algebra.Order.Group.Int
import Mathlib.Data.List.Nodup

/-!
# `testcontainer/n.h`: the class `FDSocketRegistry`

A socket gets a record when it is registered, which is found by its descriptor in a vector, and
by its ID in a map.  IDs are given out by a counter of 64 bits that starts at `1`, so that there
are `2 ^ 64 - 1` of them before it passes `0`.

In the condition of `unregister_socket` the three tests stand beside each other without an
operator in the file; they are read as joined by `||`.
-/

namespace ClientServer.Testcontainer

open Std (ExtTreeMap)

/-! ## The registry -/

abbrev SocketID := UInt64

abbrev SocketFD := ℤ

/-- A record, with the number of records made before it in the place of its address.  Nobody
assigns to its fields after `register_socket`. -/
structure SocketData where
  address : ℕ
  id : SocketID
  fileDescriptor : SocketFD
  deriving DecidableEq

/-- The fields of class `FDSocketRegistry`, and the IDs it gave out, the last one first. -/
structure FDSocketRegistry where
  fdToData : List (Option SocketData)
  idToDataPtr : ExtTreeMap SocketID SocketData
  nextIdCounter : SocketID
  issued : List SocketID

namespace FDSocketRegistry

/-- A new registry. -/
def empty : FDSocketRegistry := ⟨[], ∅, 1, []⟩

/-- `fd_to_data_[fd]`. -/
def slot (v : List (Option SocketData)) (fd : SocketFD) : Option SocketData := v[fd.toNat]?.join

/-- `fd_to_data_.resize(n, nullptr)` to a greater size. -/
def resize (v : List (Option SocketData)) (n : ℕ) : List (Option SocketData) :=
  v ++ List.replicate (n - v.length) none

/-- The vector after the first step of `register_socket`. -/
def sized (r : FDSocketRegistry) (fd : SocketFD) : List (Option SocketData) :=
  if (r.fdToData.length : ℤ) ≤ fd then resize r.fdToData (fd.toNat + 1) else r.fdToData

/-- The record that `register_socket` makes. -/
def newData (r : FDSocketRegistry) (fd : SocketFD) : SocketData :=
  ⟨r.issued.length, r.nextIdCounter, fd⟩

/-- `register_socket`. -/
def registerSocket (r : FDSocketRegistry) (fd : SocketFD) : FDSocketRegistry :=
  if fd < 0 then r
  else
    let fdToData := r.sized fd
    let idToDataPtr := match slot fdToData fd with
      | some old => r.idToDataPtr.erase old.id
      | none => r.idToDataPtr
    { fdToData := fdToData.set fd.toNat (some (r.newData fd))
      idToDataPtr := idToDataPtr.insert r.nextIdCounter (r.newData fd)
      nextIdCounter := r.nextIdCounter + 1
      issued := r.nextIdCounter :: r.issued }

/-- `unregister_socket`. -/
def unregisterSocket (r : FDSocketRegistry) (fd : SocketFD) : FDSocketRegistry :=
  if fd < 0 ∨ (r.fdToData.length : ℤ) ≤ fd then r
  else
    match slot r.fdToData fd with
    | none => r
    | some d =>
      { r with
        idToDataPtr := r.idToDataPtr.erase d.id
        fdToData := r.fdToData.set fd.toNat none }

/-- `find_by_fd`. -/
def findByFd (r : FDSocketRegistry) (fd : SocketFD) : Option SocketData :=
  if 0 ≤ fd ∧ fd < r.fdToData.length then slot r.fdToData fd else none

/-- `find_by_id`. -/
def findById (r : FDSocketRegistry) (id : SocketID) : Option SocketData := r.idToDataPtr[id]?

/-- A call of a member function that changes the registry. -/
inductive Action
  | registerSocket (fd : SocketFD)
  | unregisterSocket (fd : SocketFD)
  deriving DecidableEq, Repr

/-- The argument of a call. -/
def Action.fd : Action → SocketFD
  | .registerSocket fd => fd
  | .unregisterSocket fd => fd

/-- The registry after a call. -/
def apply (r : FDSocketRegistry) : Action → FDSocketRegistry
  | .registerSocket fd => r.registerSocket fd
  | .unregisterSocket fd => r.unregisterSocket fd

/-- Every call returns. -/
def step (r : FDSocketRegistry) (a : Action) : Option FDSocketRegistry := some (r.apply a)

/-- A registration: a call that gives out an ID. -/
def Action.registers : Action → Bool
  | .registerSocket fd => 0 ≤ fd
  | .unregisterSocket _ => false

/-! ## What the calls do to the two lookups -/

variable {r : FDSocketRegistry} {fd : SocketFD} {d : SocketData}

/-- There is nothing behind the end of a vector. -/
lemma slot_of_le_length {v : List (Option SocketData)} (h : (v.length : ℤ) ≤ fd) :
    slot v fd = none := by
  unfold slot
  rw [List.getElem?_eq_none (by omega)]
  rfl

lemma findByFd_of_nonneg (r : FDSocketRegistry) (h : 0 ≤ fd) :
    r.findByFd fd = slot r.fdToData fd := by
  unfold findByFd
  by_cases hlt : fd < r.fdToData.length
  · rw [if_pos ⟨h, hlt⟩]
  · rw [if_neg fun hboth => hlt hboth.2, slot_of_le_length (not_lt.1 hlt)]

lemma findByFd_of_neg (r : FDSocketRegistry) (h : fd < 0) : r.findByFd fd = none := by
  unfold findByFd
  rw [if_neg fun hboth => not_lt.2 hboth.1 h]

/-- Growing the vector adds nothing that can be found. -/
lemma slot_sized (r : FDSocketRegistry) (fd fd' : SocketFD) :
    slot (r.sized fd) fd' = slot r.fdToData fd' := by
  unfold sized slot resize
  split_ifs
  · by_cases hlt : fd'.toNat < r.fdToData.length
    · rw [List.getElem?_append_left hlt]
    · rw [List.getElem?_append_right (not_lt.1 hlt), List.getElem?_replicate,
        List.getElem?_eq_none (not_lt.1 hlt)]
      split_ifs <;> rfl
  · rfl

lemma lt_length_sized (r : FDSocketRegistry) (h : 0 ≤ fd) : fd.toNat < (r.sized fd).length := by
  unfold sized resize
  split_ifs with hlength
  · rw [List.length_append, List.length_replicate]
    omega
  · exact (Int.toNat_lt h).2 (not_le.1 hlength)

/-- Assigning to one element of a vector. -/
lemma slot_set {v : List (Option SocketData)} (hfd : 0 ≤ fd) (hlt : fd.toNat < v.length)
    (x : Option SocketData) {fd' : SocketFD} (hfd' : 0 ≤ fd') :
    slot (v.set fd.toNat x) fd' = if fd' = fd then x else slot v fd' := by
  unfold slot
  rw [List.getElem?_set]
  by_cases heq : fd' = fd
  · subst heq
    rw [if_pos rfl, if_pos rfl, if_pos hlt]
    rfl
  · have hslot : fd.toNat ≠ fd'.toNat := by
      intro hslot
      rw [← Int.toNat_of_nonneg hfd', ← hslot, Int.toNat_of_nonneg hfd] at heq
      exact heq rfl
    rw [if_neg heq, if_neg hslot]

/-- A registration changes what is found under one descriptor. -/
lemma findByFd_registerSocket (r : FDSocketRegistry) (h : 0 ≤ fd) :
    (r.registerSocket fd).findByFd =
      Function.update r.findByFd fd (some (r.newData fd)) := by
  funext fd'
  rw [Function.update_apply]
  by_cases hfd' : 0 ≤ fd'
  · rw [findByFd_of_nonneg _ hfd', findByFd_of_nonneg _ hfd', registerSocket, if_neg (not_lt.2 h)]
    show slot ((r.sized fd).set fd.toNat (some (r.newData fd))) fd' = _
    rw [slot_set h (r.lt_length_sized h) _ hfd', slot_sized]
  · rw [findByFd_of_neg _ (not_le.1 hfd'), findByFd_of_neg _ (not_le.1 hfd'), if_neg]
    rintro rfl
    exact hfd' h

/-- And forgets the ID of the record that was there, before it adds the new one. -/
lemma findById_registerSocket (r : FDSocketRegistry) (h : 0 ≤ fd) :
    (r.registerSocket fd).findById =
      Function.update
        (match r.findByFd fd with
        | some old => Function.update r.findById old.id none
        | none => r.findById)
        r.nextIdCounter (some (r.newData fd)) := by
  rw [findByFd_of_nonneg _ h, ← slot_sized r fd, registerSocket, if_neg (not_lt.2 h)]
  refine (getElem?_insert_eq_update _ _ _).trans ?_
  cases slot (r.sized fd) fd with
  | none => rfl
  | some old => exact congrArg (Function.update · _ _) (getElem?_erase_eq_update _ _)

lemma issued_registerSocket (r : FDSocketRegistry) (h : 0 ≤ fd) :
    (r.registerSocket fd).issued = r.nextIdCounter :: r.issued := by
  rw [registerSocket, if_neg (not_lt.2 h)]

lemma nextIdCounter_registerSocket (r : FDSocketRegistry) (h : 0 ≤ fd) :
    (r.registerSocket fd).nextIdCounter = r.nextIdCounter + 1 := by
  rw [registerSocket, if_neg (not_lt.2 h)]

/-- Nothing happens if there is no record. -/
lemma unregisterSocket_of_none (h : r.findByFd fd = none) : r.unregisterSocket fd = r := by
  unfold unregisterSocket
  by_cases hrange : fd < 0 ∨ (r.fdToData.length : ℤ) ≤ fd
  · rw [if_pos hrange]
  · rw [not_or, not_lt] at hrange
    rw [findByFd_of_nonneg _ hrange.1] at h
    rw [if_neg (not_or.2 ⟨not_lt.2 hrange.1, hrange.2⟩), h]

/-- What is found lies within the vector. -/
lemma slot_of_findByFd (h : r.findByFd fd = some d) :
    (0 ≤ fd ∧ fd < r.fdToData.length) ∧ slot r.fdToData fd = some d := by
  unfold findByFd at h
  exact Option.ite_none_right_eq_some.1 h

/-- What an `unregister_socket` that finds a record does. -/
lemma unregisterSocket_of_some (h : r.findByFd fd = some d) :
    r.unregisterSocket fd =
      { r with
        idToDataPtr := r.idToDataPtr.erase d.id
        fdToData := r.fdToData.set fd.toNat none } := by
  obtain ⟨⟨hfd, hlt⟩, hslot⟩ := slot_of_findByFd h
  unfold unregisterSocket
  rw [if_neg (not_or.2 ⟨not_lt.2 hfd, not_le.2 hlt⟩), hslot]

lemma findByFd_unregisterSocket (h : r.findByFd fd = some d) :
    (r.unregisterSocket fd).findByFd = Function.update r.findByFd fd none := by
  obtain ⟨⟨hfd, hlt⟩, -⟩ := slot_of_findByFd h
  rw [unregisterSocket_of_some h]
  funext fd'
  rw [Function.update_apply]
  by_cases hfd' : 0 ≤ fd'
  · rw [findByFd_of_nonneg _ hfd', findByFd_of_nonneg _ hfd']
    exact slot_set hfd ((Int.toNat_lt hfd).2 hlt) _ hfd'
  · rw [findByFd_of_neg _ (not_le.1 hfd'), findByFd_of_neg _ (not_le.1 hfd'), ite_self]

lemma findById_unregisterSocket (h : r.findByFd fd = some d) :
    (r.unregisterSocket fd).findById = Function.update r.findById d.id none := by
  rw [unregisterSocket_of_some h]
  exact getElem?_erase_eq_update _ _

/-! ## The two indexes -/

/-- The two lookups find the same records, and no ID was given out twice. -/
structure Consistent (r : FDSocketRegistry) : Prop where
  inverse : ∀ fd d,
    r.findByFd fd = some d ↔ r.findById d.id = some d ∧ d.fileDescriptor = fd
  reachable : ∀ id d, r.findById id = some d → r.findByFd d.fileDescriptor = some d
  distinct : ∀ fd fd' d d', r.findByFd fd = some d → r.findByFd fd' = some d' →
    d.id = d'.id → d = d'
  neverReissued : r.issued.Nodup

/-- The IDs of the records that can be found are below `next_id_counter_`. -/
def BelowCounter (r : FDSocketRegistry) : Prop :=
  ∀ fd d, r.findByFd fd = some d → d.id < r.nextIdCounter

/-- A call makes the record under its argument unreachable, and leaves every other as it is. -/
structure ChangesOnly (r : FDSocketRegistry) (a : Action) : Prop where
  forgottenByFd : ∀ d, r.findByFd a.fd = some d → ∀ fd, (r.apply a).findByFd fd ≠ some d
  forgottenById : ∀ d, r.findByFd a.fd = some d → ∀ id, (r.apply a).findById id ≠ some d
  othersByFd : ∀ fd, fd ≠ a.fd → (r.apply a).findByFd fd = r.findByFd fd
  othersById : ∀ d, d.fileDescriptor ≠ a.fd →
    ∀ id, (r.apply a).findById id = some d ↔ r.findById id = some d

/-- What holds while the counter has not passed `0`: the IDs given out are the numbers from `1`
on, and the map mirrors the vector. -/
structure Linked (r : FDSocketRegistry) : Prop where
  mirrors : Mirrors r.findByFd r.findById SocketData.id
  descriptor : ∀ fd d, r.findByFd fd = some d → d.fileDescriptor = fd
  live : ∀ fd d, r.findByFd fd = some d → d.id ∈ r.issued
  nodup : r.issued.Nodup
  bounded : ∀ id ∈ r.issued, id.toNat ≤ r.issued.length
  counter : r.nextIdCounter = UInt64.ofNat (r.issued.length + 1)

/-- A registration finds an ID that was not given out. -/
def HasRoom (r : FDSocketRegistry) (a : Action) : Prop :=
  a.registers = true → r.issued.length + 1 < 2 ^ 64

namespace Linked

lemma counter_toNat (h : r.Linked) (hroom : r.issued.length + 1 < 2 ^ 64) :
    r.nextIdCounter.toNat = r.issued.length + 1 := by
  rw [h.counter]
  exact UInt64.toNat_ofNat_of_lt' hroom

lemma counter_not_mem (h : r.Linked) (hroom : r.issued.length + 1 < 2 ^ 64) :
    r.nextIdCounter ∉ r.issued := by
  intro hmem
  have hbound := h.bounded _ hmem
  rw [h.counter_toNat hroom] at hbound
  omega

lemma belowCounter (h : r.Linked) (hroom : r.issued.length + 1 < 2 ^ 64) : r.BelowCounter := by
  intro fd d hd
  have hbound := h.bounded _ (h.live fd d hd)
  rw [UInt64.lt_iff_toNat_lt, h.counter_toNat hroom]
  omega

lemma consistent (h : r.Linked) : r.Consistent where
  inverse := by
    intro fd d
    constructor
    · intro hd
      exact ⟨h.mirrors.second_key hd, h.descriptor fd d hd⟩
    · rintro ⟨hd, rfl⟩
      obtain ⟨fd, hfd, -⟩ := (h.mirrors.found _ _).1 hd
      rwa [h.descriptor fd d hfd]
  reachable := by
    intro id d hd
    obtain ⟨fd, hfd, -⟩ := (h.mirrors.found _ _).1 hd
    rwa [h.descriptor fd d hfd]
  distinct := by
    intro fd fd' d d' hd hd' hid
    have hfd := h.mirrors.unique fd fd' d d' hd hd' hid
    rw [hfd, hd'] at hd
    exact (Option.some.inj hd).symm
  neverReissued := h.nodup

/-- The record that was under the descriptor is taken out, and the new one put in. -/
lemma mirrors_registerSocket (h : r.Linked) (hfd : 0 ≤ fd)
    (hroom : r.issued.length + 1 < 2 ^ 64) :
    Mirrors (r.registerSocket fd).findByFd (r.registerSocket fd).findById SocketData.id := by
  have hfresh (fd' : SocketFD) (d : SocketData) (hd : r.findByFd fd' = some d) :
      d.id ≠ (r.newData fd).id := by
    intro hid
    have hmem := h.live fd' d hd
    rw [hid] at hmem
    exact h.counter_not_mem hroom hmem
  rw [findByFd_registerSocket r hfd, findById_registerSocket r hfd]
  cases hold : r.findByFd fd with
  | none => exact h.mirrors.add hold hfresh
  | some old =>
    have hfresh' (fd' : SocketFD) (d : SocketData)
        (hd : Function.update r.findByFd fd none fd' = some d) : d.id ≠ (r.newData fd).id := by
      rw [Function.update_apply] at hd
      split_ifs at hd
      exact hfresh fd' d hd
    have hadded := (h.mirrors.remove hold).add (Function.update_self ..) hfresh'
    rw [Function.update_idem] at hadded
    exact hadded

/-- A registration keeps the indexes linked. -/
lemma registerSocket (h : r.Linked) (hfd : 0 ≤ fd) (hroom : r.issued.length + 1 < 2 ^ 64) :
    (r.registerSocket fd).Linked where
  mirrors := h.mirrors_registerSocket hfd hroom
  descriptor := by
    intro fd' d hd
    rw [findByFd_registerSocket r hfd, Function.update_apply] at hd
    split_ifs at hd with hfd'
    · cases hd
      exact hfd'.symm
    · exact h.descriptor fd' d hd
  live := by
    intro fd' d hd
    rw [issued_registerSocket r hfd]
    rw [findByFd_registerSocket r hfd, Function.update_apply] at hd
    split_ifs at hd with hfd'
    · cases hd
      exact List.mem_cons_self
    · exact List.mem_cons_of_mem _ (h.live fd' d hd)
  nodup := by
    rw [issued_registerSocket r hfd]
    exact List.nodup_cons.2 ⟨h.counter_not_mem hroom, h.nodup⟩
  bounded := by
    intro id hid
    rw [issued_registerSocket r hfd] at hid ⊢
    rw [List.length_cons]
    rcases List.mem_cons.1 hid with rfl | hid
    · exact (h.counter_toNat hroom).le
    · exact (h.bounded id hid).trans (Nat.le_succ _)
  counter := by
    rw [nextIdCounter_registerSocket r hfd, issued_registerSocket r hfd, h.counter,
      List.length_cons, UInt64.ofNat_add (r.issued.length + 1)]
    rfl

/-- So does taking a record out. -/
lemma unregisterSocket (h : r.Linked) (fd : SocketFD) : (r.unregisterSocket fd).Linked := by
  cases hold : r.findByFd fd with
  | none =>
    rw [unregisterSocket_of_none hold]
    exact h
  | some old =>
    have hissued : (r.unregisterSocket fd).issued = r.issued := by
      rw [unregisterSocket_of_some hold]
    have hcounter : (r.unregisterSocket fd).nextIdCounter = r.nextIdCounter := by
      rw [unregisterSocket_of_some hold]
    have hkept {fd' : SocketFD} {d : SocketData}
        (hd : (r.unregisterSocket fd).findByFd fd' = some d) : r.findByFd fd' = some d := by
      rw [findByFd_unregisterSocket hold, Function.update_apply] at hd
      split_ifs at hd
      exact hd
    refine ⟨?_, fun fd' d hd => h.descriptor fd' d (hkept hd), fun fd' d hd => ?_, ?_, ?_, ?_⟩
    · rw [findByFd_unregisterSocket hold, findById_unregisterSocket hold]
      exact h.mirrors.remove hold
    · rw [hissued]
      exact h.live fd' d (hkept hd)
    · rw [hissued]
      exact h.nodup
    · rw [hissued]
      exact h.bounded
    · rw [hissued, hcounter]
      exact h.counter

end Linked

/-! ## Every run -/

lemma linked_empty : empty.Linked where
  mirrors := by
    have hfd : empty.findByFd = fun _ => none := by
      funext fd
      by_cases hneg : 0 ≤ fd
      · rw [findByFd_of_nonneg _ hneg]
        rfl
      · exact findByFd_of_neg _ (not_le.1 hneg)
    have hid : empty.findById = fun _ => none := by
      funext id
      exact ExtTreeMap.getElem?_empty
    rw [hfd, hid]
    exact Mirrors.empty _
  descriptor := by
    intro fd d hd
    cases (slot_of_findByFd hd).2
  live := by
    intro fd d hd
    cases (slot_of_findByFd hd).2
  nodup := List.nodup_nil
  bounded := by
    intro id hid
    cases hid
  counter := rfl

lemma registerSocket_of_neg (r : FDSocketRegistry) (h : fd < 0) : r.registerSocket fd = r := by
  rw [registerSocket, if_pos h]

lemma linked_step : Preserves step HasRoom Linked := by
  intro r a r' h hroom hstep
  cases hstep
  cases a with
  | registerSocket fd =>
    show (r.registerSocket fd).Linked
    by_cases hfd : 0 ≤ fd
    · exact h.registerSocket hfd (hroom (decide_eq_true hfd))
    · rw [registerSocket_of_neg r (not_le.1 hfd)]
      exact h
  | unregisterSocket fd => exact h.unregisterSocket fd

/-- Whatever the call, the other descriptors find what they found. -/
lemma findByFd_apply_of_ne (r : FDSocketRegistry) (a : Action) (hfd : fd ≠ a.fd) :
    (r.apply a).findByFd fd = r.findByFd fd := by
  cases a with
  | registerSocket fd' =>
    show (r.registerSocket fd').findByFd fd = _
    by_cases hnonneg : 0 ≤ fd'
    · rw [findByFd_registerSocket r hnonneg]
      exact Function.update_of_ne hfd _ _
    · rw [registerSocket_of_neg r (not_le.1 hnonneg)]
  | unregisterSocket fd' =>
    show (r.unregisterSocket fd').findByFd fd = _
    cases hold : r.findByFd fd' with
    | none => rw [unregisterSocket_of_none hold]
    | some old =>
      rw [findByFd_unregisterSocket hold]
      exact Function.update_of_ne hfd _ _

/-- And the descriptor of the call finds another record, or none. -/
lemma Linked.findByFd_apply_fd_ne (h : r.Linked) {a : Action} (hroom : r.HasRoom a)
    (hd : r.findByFd a.fd = some d) : (r.apply a).findByFd a.fd ≠ some d := by
  cases a with
  | registerSocket fd =>
    have hfd : 0 ≤ fd := (slot_of_findByFd hd).1.1
    show (r.registerSocket fd).findByFd fd ≠ some d
    rw [findByFd_registerSocket r hfd, Function.update_self]
    intro hnew
    have hmem := h.live fd d hd
    rw [← Option.some.inj hnew] at hmem
    exact h.counter_not_mem (hroom (decide_eq_true hfd)) hmem
  | unregisterSocket fd =>
    have hfound : r.findByFd fd = some d := hd
    show (r.unregisterSocket fd).findByFd fd ≠ some d
    rw [findByFd_unregisterSocket hfound, Function.update_self]
    intro hnone
    cases hnone

lemma Linked.changesOnly (h : r.Linked) {a : Action} (hroom : r.HasRoom a) :
    r.ChangesOnly a := by
  have h' : (r.apply a).Linked := linked_step r a _ h hroom rfl
  have hforgotten (d : SocketData) (hd : r.findByFd a.fd = some d) (fd : SocketFD) :
      (r.apply a).findByFd fd ≠ some d := by
    by_cases hfd : fd = a.fd
    · rw [hfd]
      exact h.findByFd_apply_fd_ne hroom hd
    · rw [findByFd_apply_of_ne r a hfd]
      intro hd'
      exact hfd ((h.descriptor fd d hd').symm.trans (h.descriptor _ d hd))
  refine ⟨hforgotten, ?_, fun fd hfd => findByFd_apply_of_ne r a hfd, ?_⟩
  · intro d hd id hid
    obtain ⟨fd, hfd, -⟩ := (h'.mirrors.found id d).1 hid
    exact hforgotten d hd fd hfd
  · intro d hd id
    rw [h'.mirrors.found, h.mirrors.found]
    apply exists_congr
    intro fd
    apply and_congr_left
    intro _
    constructor
    · intro hfound
      have hfd : fd ≠ a.fd := by
        rintro rfl
        exact hd (h'.descriptor _ d hfound)
      rwa [findByFd_apply_of_ne r a hfd] at hfound
    · intro hfound
      have hfd : fd ≠ a.fd := by
        rintro rfl
        exact hd (h.descriptor _ d hfound)
      rwa [findByFd_apply_of_ne r a hfd]

lemma length_issued_apply (r : FDSocketRegistry) (a : Action) :
    (r.apply a).issued.length = r.issued.length + if a.registers then 1 else 0 := by
  cases a with
  | registerSocket fd =>
    show (r.registerSocket fd).issued.length = r.issued.length + if decide (0 ≤ fd) then 1 else 0
    by_cases hfd : 0 ≤ fd
    · rw [issued_registerSocket r hfd, decide_eq_true hfd]
      rfl
    · rw [registerSocket_of_neg r (not_le.1 hfd), decide_eq_false hfd]
      rfl
  | unregisterSocket fd =>
    show (r.unregisterSocket fd).issued.length = r.issued.length
    cases hold : r.findByFd fd with
    | none => rw [unregisterSocket_of_none hold]
    | some old => rw [unregisterSocket_of_some hold]

/-- There are IDs for fewer than `2 ^ 64` registrations. -/
lemma along_hasRoom (r : FDSocketRegistry) (as : List Action)
    (h : r.issued.length + as.countP Action.registers < 2 ^ 64) : Along step HasRoom r as := by
  induction as generalizing r with
  | nil => trivial
  | cons a as ih =>
    intro r' hstep
    cases hstep
    rw [List.countP_cons] at h
    constructor
    · intro ha
      rw [if_pos ha] at h
      omega
    · apply ih
      rw [length_issued_apply]
      omega

/-- **The vector and the map are inverse to each other.**  In a run with fewer than `2 ^ 64`
registrations the two lookups agree in every state, no ID is given out twice, and each call
makes unreachable the record under its argument and no other.  The IDs of the records are below
`next_id_counter_` until the last of the `2 ^ 64 - 1` IDs is given out. -/
theorem consistent_throughout (as : List Action) (h : as.countP Action.registers < 2 ^ 64) :
    Throughout step
        (fun r => r.Consistent ∧ (r.issued.length + 1 < 2 ^ 64 → r.BelowCounter)) empty as ∧
      Along step ChangesOnly empty as := by
  have hroom : Along step HasRoom empty as := by
    apply along_hasRoom
    show 0 + as.countP Action.registers < 2 ^ 64
    rwa [Nat.zero_add]
  constructor
  · exact linked_step.throughout (fun r hr => ⟨hr.consistent, hr.belowCounter⟩) linked_empty hroom
  · exact linked_step.along (fun r a _ hr ha _ => hr.changesOnly ha) linked_empty hroom

/-- A descriptor that is registered again without being unregistered, and calls that find no
record. -/
theorem consistent_throughout_of_reuse :
    let as : List Action := [.registerSocket 3, .registerSocket 3, .unregisterSocket 3,
      .unregisterSocket 3, .unregisterSocket (-1), .registerSocket (-1)]
    as.countP Action.registers < 2 ^ 64 ∧
      Throughout step
        (fun r => r.Consistent ∧ (r.issued.length + 1 < 2 ^ 64 → r.BelowCounter)) empty as ∧
      Along step ChangesOnly empty as :=
  ⟨by decide, consistent_throughout _ (by decide)⟩

/-! ## The last ID -/

/-- A run that registers one descriptor again and again ends with a record, and with the counter
so many IDs on. -/
lemma throughout_registerSocket_zero {Q : FDSocketRegistry → Prop} (n : ℕ)
    (r : FDSocketRegistry)
    (h : Throughout step Q r (List.replicate (n + 1) (.registerSocket 0))) :
    ∃ r' d, Q r' ∧ r'.findByFd 0 = some d ∧
      r'.nextIdCounter = r.nextIdCounter + UInt64.ofNat (n + 1) := by
  have hcounter := nextIdCounter_registerSocket r (le_refl (0 : SocketFD))
  induction n generalizing r with
  | zero =>
    refine ⟨r.registerSocket 0, r.newData 0, h.2 _ rfl, ?_, hcounter⟩
    rw [findByFd_registerSocket r le_rfl, Function.update_self]
  | succ n ih =>
    obtain ⟨r', d, hQ, hd, hcounter'⟩ := ih (r.registerSocket 0) (h.2 _ rfl)
      (nextIdCounter_registerSocket _ le_rfl)
    refine ⟨r', d, hQ, hd, ?_⟩
    rw [hcounter', hcounter, UInt64.add_assoc, UInt64.add_comm 1, UInt64.ofNat_add (n + 1) 1]
    rfl

/-- The last ID is not below the counter: the counter has passed to `0`. -/
theorem not_belowCounter_of_last_id :
    (List.replicate (2 ^ 64 - 1) (Action.registerSocket 0)).countP Action.registers < 2 ^ 64 ∧
      ¬ Throughout step (fun r => r.Consistent ∧ r.BelowCounter) empty
        (List.replicate (2 ^ 64 - 1) (Action.registerSocket 0)) := by
  constructor
  · rw [List.countP_replicate, if_pos (by decide)]
    exact Nat.sub_lt (by decide) (by decide)
  · intro h
    obtain ⟨r, d, ⟨-, hbelow⟩, hd, hcounter⟩ :=
      throughout_registerSocket_zero (2 ^ 64 - 2) empty h
    have hlt := hbelow 0 d hd
    have hzero : r.nextIdCounter = 0 := hcounter.trans (by decide)
    rw [hzero] at hlt
    exact absurd hlt (UInt64.not_lt.2 d.id.zero_le)

end FDSocketRegistry

end ClientServer.Testcontainer
