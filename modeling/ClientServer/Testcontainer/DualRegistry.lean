import ClientServer.Testcontainer.FdRegistry

/-!
# `testcontainer/s.h`: the class template `DualUnorderedMapRegistry`

The values are pointers to records that the caller makes, with an `id` field.  `insert` takes an
ID from the counter and keeps the value under it, but does not write it into the record; the
record has what the caller left there, and that is where `insert` and `del` look for the ID of
the value that goes out.

The records are a function from the values to their `id` fields.  `find_by_fd` is declared with
a pointer too many in its result, which is left out.
-/

namespace ClientServer.Testcontainer

open Std (ExtTreeMap)

/-! ## The registry -/

/-- The fields of class `DualUnorderedMapRegistry`. -/
structure DualUnorderedMapRegistry (V : Type*) where
  idToData : ExtTreeMap SocketID V
  fdToData : ExtTreeMap SocketFD V
  nextIdCounter : SocketID

namespace DualUnorderedMapRegistry

variable {V : Type*}

/-- A new registry. -/
def empty : DualUnorderedMapRegistry V := ⟨∅, ∅, 1⟩

/-- `insert`, where `ids` are the `id` fields of the records. -/
def insert (r : DualUnorderedMapRegistry V) (ids : V → SocketID) (fd : SocketFD) (val : V) :
    DualUnorderedMapRegistry V :=
  let idToData := match r.fdToData[fd]? with
    | some old => r.idToData.erase (ids old)
    | none => r.idToData
  { fdToData := r.fdToData.insert fd val
    idToData := idToData.insert r.nextIdCounter val
    nextIdCounter := r.nextIdCounter + 1 }

/-- `del`. -/
def del (r : DualUnorderedMapRegistry V) (ids : V → SocketID) (fd : SocketFD) :
    DualUnorderedMapRegistry V :=
  match r.fdToData[fd]? with
  | some old => { r with idToData := r.idToData.erase (ids old), fdToData := r.fdToData.erase fd }
  | none => r

/-- `find_by_fd`. -/
def findByFd (r : DualUnorderedMapRegistry V) (fd : SocketFD) : Option V := r.fdToData[fd]?

/-- `find_by_id`. -/
def findById (r : DualUnorderedMapRegistry V) (id : SocketID) : Option V := r.idToData[id]?

variable {r : DualUnorderedMapRegistry V} {ids : V → SocketID} {fd : SocketFD} {old : V}

lemma findByFd_insert (r : DualUnorderedMapRegistry V) (ids : V → SocketID) (fd : SocketFD)
    (val : V) : (r.insert ids fd val).findByFd = Function.update r.findByFd fd (some val) :=
  getElem?_insert_eq_update _ _ _

lemma findById_insert_of_none (h : r.findByFd fd = none) (val : V) :
    (r.insert ids fd val).findById =
      Function.update r.findById r.nextIdCounter (some val) := by
  have hfd : r.fdToData[fd]? = none := h
  unfold insert
  rw [hfd]
  exact getElem?_insert_eq_update _ _ _

/-- The value that goes out is forgotten under the ID in its record. -/
lemma findById_insert_of_some (h : r.findByFd fd = some old) (val : V) :
    (r.insert ids fd val).findById =
      Function.update (Function.update r.findById (ids old) none) r.nextIdCounter (some val) := by
  have hfd : r.fdToData[fd]? = some old := h
  unfold insert
  rw [hfd]
  refine (getElem?_insert_eq_update _ _ _).trans ?_
  exact congrArg (Function.update · _ _) (getElem?_erase_eq_update _ _)

lemma findById_insert_counter (r : DualUnorderedMapRegistry V) (ids : V → SocketID)
    (fd : SocketFD) (val : V) : (r.insert ids fd val).findById r.nextIdCounter = some val :=
  ExtTreeMap.getElem?_insert_self

/-- Every other ID finds what it found, but for the one in the record that goes out. -/
lemma findById_insert_of_ne {id : SocketID} (hid : id ≠ r.nextIdCounter)
    (hold : ∀ old, r.findByFd fd = some old → id ≠ ids old) (val : V) :
    (r.insert ids fd val).findById id = r.findById id := by
  cases h : r.findByFd fd with
  | none => rw [findById_insert_of_none h, Function.update_of_ne hid]
  | some old =>
    rw [findById_insert_of_some h, Function.update_of_ne hid, Function.update_of_ne (hold old h)]

/-- With a new descriptor the maps stay of one size if the ID is free. -/
lemma size_insert_iff_of_none (h : r.findByFd fd = none)
    (hsize : r.fdToData.size = r.idToData.size) (val : V) :
    (r.insert ids fd val).fdToData.size = (r.insert ids fd val).idToData.size ↔
      r.findById r.nextIdCounter = none := by
  have hfd : r.fdToData[fd]? = none := h
  unfold insert
  rw [hfd]
  show (r.fdToData.insert fd val).size = (r.idToData.insert r.nextIdCounter val).size ↔
    r.idToData[r.nextIdCounter]? = none
  rw [size_insert_of_none hfd]
  cases hid : r.idToData[r.nextIdCounter]? with
  | none => exact iff_of_true (by rw [size_insert_of_none hid, hsize]) rfl
  | some v =>
    refine iff_of_false ?_ (fun hnone => by cases hnone)
    rw [size_insert_of_some hid]
    omega

/-- With a descriptor that was there they do if the ID is free without the value that goes
out. -/
lemma size_insert_iff_of_some (h : r.findByFd fd = some old)
    (hold : r.findById (ids old) = some old) (hsize : r.fdToData.size = r.idToData.size) (val : V) :
    (r.insert ids fd val).fdToData.size = (r.insert ids fd val).idToData.size ↔
      Function.update r.findById (ids old) none r.nextIdCounter = none := by
  have hfd : r.fdToData[fd]? = some old := h
  have herased : (r.idToData.erase (ids old)).size + 1 = r.idToData.size :=
    size_erase_add_one hold
  have hlookup : Function.update r.findById (ids old) none r.nextIdCounter =
      (r.idToData.erase (ids old))[r.nextIdCounter]? :=
    (congrFun (getElem?_erase_eq_update r.idToData (ids old)) r.nextIdCounter).symm
  rw [hlookup]
  unfold insert
  rw [hfd]
  show (r.fdToData.insert fd val).size =
    ((r.idToData.erase (ids old)).insert r.nextIdCounter val).size ↔ _
  rw [size_insert_of_some hfd]
  cases hid : (r.idToData.erase (ids old))[r.nextIdCounter]? with
  | none => exact iff_of_true (by rw [size_insert_of_none hid, herased, hsize]) rfl
  | some v =>
    refine iff_of_false ?_ (fun hnone => by cases hnone)
    rw [size_insert_of_some hid]
    omega

/-- `insert` adds the value to the indexes without the one that goes out. -/
lemma exists_without (hmirrors : Mirrors r.findByFd r.findById ids)
    (hsize : r.fdToData.size = r.idToData.size) (fd : SocketFD) (val : V) :
    ∃ second, Mirrors (Function.update r.findByFd fd none) second ids ∧
      (r.insert ids fd val).findById = Function.update second r.nextIdCounter (some val) ∧
      ((r.insert ids fd val).fdToData.size = (r.insert ids fd val).idToData.size ↔
        second r.nextIdCounter = none) := by
  cases hold : r.findByFd fd with
  | none =>
    have hsame : Function.update r.findByFd fd none = r.findByFd :=
      Function.update_eq_iff.2 ⟨hold.symm, fun _ _ => rfl⟩
    refine ⟨r.findById, ?_, findById_insert_of_none hold val,
      size_insert_iff_of_none hold hsize val⟩
    rw [hsame]
    exact hmirrors
  | some old =>
    exact ⟨_, hmirrors.remove hold, findById_insert_of_some hold val,
      size_insert_iff_of_some hold (hmirrors.second_key hold) hsize val⟩

lemma del_of_none (h : r.findByFd fd = none) : r.del ids fd = r := by
  have hfd : r.fdToData[fd]? = none := h
  unfold del
  rw [hfd]

lemma del_of_some (h : r.findByFd fd = some old) :
    r.del ids fd =
      { r with idToData := r.idToData.erase (ids old), fdToData := r.fdToData.erase fd } := by
  have hfd : r.fdToData[fd]? = some old := h
  unfold del
  rw [hfd]

lemma findByFd_del (h : r.findByFd fd = some old) :
    (r.del ids fd).findByFd = Function.update r.findByFd fd none := by
  rw [del_of_some h]
  exact getElem?_erase_eq_update _ _

lemma findById_del (h : r.findByFd fd = some old) :
    (r.del ids fd).findById = Function.update r.findById (ids old) none := by
  rw [del_of_some h]
  exact getElem?_erase_eq_update _ _

end DualUnorderedMapRegistry

/-! ## The registry and the records -/

/-- A registry, the `id` fields of the records, and the IDs it gave out, the last one first. -/
structure Records (V : Type*) where
  registry : DualUnorderedMapRegistry V
  ids : V → SocketID
  issued : List SocketID

namespace Records

variable {V : Type*}

/-- Nothing was inserted yet. -/
def start (ids : V → SocketID) : Records V := ⟨.empty, ids, []⟩

/-- The two indexes describe the same sockets. -/
structure SameSockets (s : Records V) : Prop where
  size : s.registry.fdToData.size = s.registry.idToData.size
  onlyUnderId : ∀ fd v, s.registry.findByFd fd = some v →
    ∀ id, s.registry.findById id = some v ↔ id = s.ids v
  wasIssued : ∀ fd v, s.registry.findByFd fd = some v → s.ids v ∈ s.issued

/-- The map by ID mirrors the map by descriptor. -/
structure Linked (s : Records V) : Prop where
  mirrors : Mirrors s.registry.findByFd s.registry.findById s.ids
  size : s.registry.fdToData.size = s.registry.idToData.size
  wasIssued : ∀ fd v, s.registry.findByFd fd = some v → s.ids v ∈ s.issued

lemma Linked.sameSockets {s : Records V} (h : s.Linked) : s.SameSockets where
  size := h.size
  onlyUnderId := by
    intro fd v hv id
    rw [h.mirrors.second_eq_some_iff hv]
    exact eq_comm
  wasIssued := h.wasIssued

lemma linked_start (ids : V → SocketID) : (start ids).Linked where
  mirrors := by
    have hfd : (start ids).registry.findByFd = fun _ => none :=
      funext fun _ => ExtTreeMap.getElem?_empty
    have hid : (start ids).registry.findById = fun _ => none :=
      funext fun _ => ExtTreeMap.getElem?_empty
    rw [hfd, hid]
    exact Mirrors.empty ids
  size := rfl
  wasIssued := by
    intro fd v hv
    cases hv.symm.trans ExtTreeMap.getElem?_empty

variable [DecidableEq V]

/-- A call of a member function that changes the registry. -/
inductive Action (V : Type*)
  /-- `insert`, of a record in which the caller left the ID `left`. -/
  | insert (fd : SocketFD) (val : V) (left : SocketID)
  | del (fd : SocketFD)

/-- The descriptor in a call. -/
def Action.fd : Action V → SocketFD
  | .insert fd _ _ => fd
  | .del fd => fd

/-- The registry and the records after a call. -/
def apply (s : Records V) : Action V → Records V
  | .insert fd val left =>
    let ids := Function.update s.ids val left
    { registry := s.registry.insert ids fd val
      ids := ids
      issued := s.registry.nextIdCounter :: s.issued }
  | .del fd => { s with registry := s.registry.del s.ids fd }

/-- Every call returns. -/
def step (s : Records V) (a : Action V) : Option (Records V) := some (s.apply a)

/-- A call makes the value that it takes out unreachable, and leaves the entries of the other
descriptors as they are. -/
structure ChangesOnly (s : Records V) (a : Action V) : Prop where
  forgotten : ∀ v, s.registry.findByFd a.fd = some v →
    (s.apply a).registry.findByFd a.fd ≠ some v →
    ∀ id, (s.apply a).registry.findById id ≠ some v
  othersByFd : ∀ fd, fd ≠ a.fd →
    (s.apply a).registry.findByFd fd = s.registry.findByFd fd
  othersById : ∀ fd v, fd ≠ a.fd → s.registry.findByFd fd = some v →
    ∀ id, (s.apply a).registry.findById id = some v ↔ s.registry.findById id = some v

/-- The caller left in the record the ID that the counter is about to give out, no other
descriptor has the record or one with that ID, and where the descriptor has the record itself it
had that ID before. -/
def Suits (s : Records V) : Action V → Prop
  | .insert fd val left =>
    left = s.registry.nextIdCounter ∧
      (∀ fd' v, fd' ≠ fd → s.registry.findByFd fd' = some v → v ≠ val ∧ s.ids v ≠ left) ∧
      (s.registry.findByFd fd = some val → s.ids val = left)
  | .del _ => True

variable {s : Records V} {fd : SocketFD} {val : V} {left : SocketID}

lemma findByFd_apply_insert (s : Records V) (fd : SocketFD) (val : V) (left : SocketID) :
    (s.apply (.insert fd val left)).registry.findByFd =
      Function.update s.registry.findByFd fd (some val) :=
  s.registry.findByFd_insert (Function.update s.ids val left) fd val

lemma findById_apply_insert (s : Records V) (fd : SocketFD) (val : V) (left : SocketID) :
    (s.apply (.insert fd val left)).registry.findById s.registry.nextIdCounter = some val :=
  s.registry.findById_insert_counter (Function.update s.ids val left) fd val

/-- What the call makes of the records. -/
lemma ids_apply_insert (s : Records V) (fd : SocketFD) (val : V) (left : SocketID) :
    (s.apply (.insert fd val left)).ids = Function.update s.ids val left := rfl

/-! ## Calls that keep the indexes together -/

/-- Where the caller writes the ID of a record that the registry does not have, or has with that
ID, the indexes are as they were. -/
lemma Linked.mirrors_update (h : s.Linked) (hsuits : s.Suits (.insert fd val left)) :
    Mirrors s.registry.findByFd s.registry.findById (Function.update s.ids val left) := by
  obtain ⟨-, hothers, hsame⟩ := hsuits
  apply h.mirrors.congr_key
  intro fd' v hv
  by_cases hval : v = val
  · subst hval
    rw [Function.update_self]
    by_cases hfd : fd' = fd
    · subst hfd
      exact hsame hv
    · exact absurd rfl (hothers fd' v hfd hv).1
  · rw [Function.update_of_ne hval]

/-- No other descriptor has a record with the ID that is given out. -/
lemma Suits.update_ne (hsuits : s.Suits (.insert fd val left)) {fd' : SocketFD} {v : V}
    (hfd : fd' ≠ fd) (hv : s.registry.findByFd fd' = some v) :
    Function.update s.ids val left v ≠ s.registry.nextIdCounter := by
  obtain ⟨hleft, hothers, -⟩ := hsuits
  obtain ⟨hval, hid⟩ := hothers fd' v hfd hv
  rw [Function.update_of_ne hval, ← hleft]
  exact hid

/-- The value that goes out is taken out under its ID, and the new one put in under the ID that
is given out. -/
lemma Linked.insert (h : s.Linked) (hsuits : s.Suits (.insert fd val left)) :
    (s.apply (.insert fd val left)).Linked := by
  have hmirrors := h.mirrors_update hsuits
  set ids := Function.update s.ids val left with hids
  have hval : ids val = s.registry.nextIdCounter := by
    rw [hids, Function.update_self]
    exact hsuits.1
  have hfree (fd' : SocketFD) (v : V)
      (hv : Function.update s.registry.findByFd fd none fd' = some v) :
      ids v ≠ s.registry.nextIdCounter := by
    rw [Function.update_apply] at hv
    split_ifs at hv with hfd
    exact hsuits.update_ne hfd hv
  obtain ⟨second, hwithout, hsecond, hsizes⟩ :=
    DualUnorderedMapRegistry.exists_without hmirrors h.size fd val
  refine ⟨?_, hsizes.2 (hwithout.second_eq_none hfree), ?_⟩
  · rw [← hval] at hfree hsecond
    have hadded := hwithout.add (Function.update_self ..) hfree
    rw [Function.update_idem] at hadded
    show Mirrors _ (s.registry.insert ids fd val).findById ids
    rw [findByFd_apply_insert, hsecond]
    exact hadded
  · intro fd' v hv
    show ids v ∈ s.registry.nextIdCounter :: s.issued
    rw [findByFd_apply_insert, Function.update_apply] at hv
    split_ifs at hv with hfd
    · cases hv
      rw [hval]
      exact List.mem_cons_self
    · have hne : v ≠ val := (hsuits.2.1 fd' v hfd hv).1
      rw [hids, Function.update_of_ne hne]
      exact List.mem_cons_of_mem _ (h.wasIssued fd' v hv)

lemma Linked.del (h : s.Linked) (fd : SocketFD) : (s.apply (.del fd)).Linked := by
  show Linked { s with registry := s.registry.del s.ids fd }
  cases hold : s.registry.findByFd fd with
  | none =>
    rw [DualUnorderedMapRegistry.del_of_none hold]
    exact h
  | some old =>
    refine ⟨?_, ?_, fun fd' v hv => ?_⟩
    · show Mirrors (s.registry.del s.ids fd).findByFd (s.registry.del s.ids fd).findById s.ids
      rw [DualUnorderedMapRegistry.findByFd_del hold, DualUnorderedMapRegistry.findById_del hold]
      exact h.mirrors.remove hold
    · show (s.registry.del s.ids fd).fdToData.size = (s.registry.del s.ids fd).idToData.size
      have hfd := size_erase_add_one (m := s.registry.fdToData) hold
      have hid := size_erase_add_one (m := s.registry.idToData) (h.mirrors.second_key hold)
      have hsize := h.size
      rw [DualUnorderedMapRegistry.del_of_some hold]
      show (s.registry.fdToData.erase fd).size = (s.registry.idToData.erase (s.ids old)).size
      omega
    · apply h.wasIssued fd' v
      have hlookup : (s.registry.del s.ids fd).findByFd fd' = some v := hv
      rw [DualUnorderedMapRegistry.findByFd_del hold, Function.update_apply] at hlookup
      split_ifs at hlookup
      exact hlookup

lemma linked_step : Preserves step Suits (Linked : Records V → Prop) := by
  intro s a s' h hsuits hstep
  cases hstep
  cases a with
  | insert fd val left => exact h.insert hsuits
  | del fd => exact h.del fd

/-! ## Calls that do not -/

/-- A record with another ID than those that `insert` erases and writes stays under its ID. -/
lemma Linked.findById_insert (h : s.Linked) {fd' : SocketFD} {v : V}
    (hv : s.registry.findByFd fd' = some v) (hnext : s.ids v ≠ s.registry.nextIdCounter)
    (hold : ∀ old, s.registry.findByFd fd = some old →
      s.ids v ≠ Function.update s.ids val left old) :
    (s.apply (.insert fd val left)).registry.findById (s.ids v) = some v := by
  show (s.registry.insert (Function.update s.ids val left) fd val).findById (s.ids v) = some v
  rw [DualUnorderedMapRegistry.findById_insert_of_ne hnext hold]
  exact h.mirrors.second_key hv

/-- After the call the descriptor has the value, and under one ID. -/
lemma SameSockets.id_eq_left (h' : (s.apply (.insert fd val left)).SameSockets) {id : SocketID}
    (hid : (s.apply (.insert fd val left)).registry.findById id = some val) : id = left := by
  have hfd : (s.apply (.insert fd val left)).registry.findByFd fd = some val := by
    rw [findByFd_apply_insert, Function.update_self]
  rw [(h'.onlyUnderId fd val hfd id).1 hid, ids_apply_insert, Function.update_self]

/-- The record had the ID that was given out. -/
lemma SameSockets.left_eq (h' : (s.apply (.insert fd val left)).SameSockets) :
    left = s.registry.nextIdCounter :=
  (h'.id_eq_left (s.findById_apply_insert fd val left)).symm

/-- No other descriptor had the record: it would be found under two IDs, or the ID given out was
its own, and then one entry is too few. -/
lemma Linked.ne_val (h : s.Linked) (h' : (s.apply (.insert fd val left)).SameSockets)
    {fd' : SocketFD} {v : V} (hfd : fd' ≠ fd) (hv : s.registry.findByFd fd' = some v) :
    v ≠ val := by
  rintro rfl
  have hleft := h'.left_eq
  by_cases hid : s.ids v = s.registry.nextIdCounter
  · have hids : Function.update s.ids v left = s.ids :=
      Function.update_eq_iff.2 ⟨hleft.trans hid.symm, fun _ _ => rfl⟩
    obtain ⟨second, hwithout, -, hsizes⟩ :=
      DualUnorderedMapRegistry.exists_without h.mirrors h.size fd v
    have hsize : (s.registry.insert (Function.update s.ids v left) fd v).fdToData.size =
      (s.registry.insert (Function.update s.ids v left) fd v).idToData.size := h'.size
    rw [hids] at hsize
    have hnone := hsizes.1 hsize
    have hkept : Function.update s.registry.findByFd fd none fd' = some v := by
      rw [Function.update_of_ne hfd]
      exact hv
    rw [← hid, hwithout.second_key hkept] at hnone
    cases hnone
  · have hkept (old : V) (hold : s.registry.findByFd fd = some old) :
        s.ids v ≠ Function.update s.ids v left old := by
      have hne : s.ids v ≠ s.ids old := fun heq => hfd (h.mirrors.unique fd' fd v old hv hold heq)
      have hold : old ≠ v := by
        rintro rfl
        exact hne rfl
      rw [Function.update_of_ne hold]
      exact hne
    exact hid ((h'.id_eq_left (h.findById_insert hv hid hkept)).trans hleft)

/-- A call that leaves the indexes describing the same sockets meets the condition. -/
lemma Linked.suits_of_sameSockets (h : s.Linked)
    (h' : (s.apply (.insert fd val left)).SameSockets) : s.Suits (.insert fd val left) := by
  have hleft := h'.left_eq
  refine ⟨hleft, fun fd' v hfd hv => ⟨h.ne_val h' hfd hv, fun hid => ?_⟩, fun hv => ?_⟩
  · have hne := h.ne_val h' hfd hv
    have hlookup : (s.apply (.insert fd val left)).registry.findByFd fd' = some v := by
      rw [findByFd_apply_insert, Function.update_of_ne hfd]
      exact hv
    have hids : (s.apply (.insert fd val left)).ids v = s.registry.nextIdCounter :=
      (Function.update_of_ne hne ..).trans (hid.trans hleft)
    have hfound := (h'.onlyUnderId fd' v hlookup s.registry.nextIdCounter).2 hids.symm
    rw [findById_apply_insert] at hfound
    exact hne (Option.some.inj hfound).symm
  · by_contra hid
    have hkept (old : V) (hold : s.registry.findByFd fd = some old) :
        s.ids val ≠ Function.update s.ids val left old := by
      rw [hv] at hold
      cases hold
      rw [Function.update_self]
      exact hid
    rw [hleft] at hid
    exact hid ((h'.id_eq_left (h.findById_insert hv hid hkept)).trans hleft)

/-! ## What the calls take out -/

lemma findByFd_apply_of_ne (s : Records V) (a : Action V) {fd : SocketFD} (hfd : fd ≠ a.fd) :
    (s.apply a).registry.findByFd fd = s.registry.findByFd fd := by
  cases a with
  | insert fd' val left =>
    rw [findByFd_apply_insert]
    exact Function.update_of_ne hfd _ _
  | del fd' =>
    show (s.registry.del s.ids fd').findByFd fd = _
    cases hold : s.registry.findByFd fd' with
    | none => rw [DualUnorderedMapRegistry.del_of_none hold]
    | some old =>
      rw [DualUnorderedMapRegistry.findByFd_del hold]
      exact Function.update_of_ne hfd _ _

/-- The records of the other descriptors keep their IDs. -/
lemma Suits.ids_apply {a : Action V} (hsuits : s.Suits a) {v : V} (hfd : fd ≠ a.fd)
    (hv : s.registry.findByFd fd = some v) : (s.apply a).ids v = s.ids v := by
  cases a with
  | insert fd' val left => exact Function.update_of_ne (hsuits.2.1 fd v hfd hv).1 _ _
  | del fd' => rfl

lemma Linked.changesOnly (h : s.Linked) {a : Action V} (hsuits : s.Suits a) :
    s.ChangesOnly a := by
  have h' : (s.apply a).Linked := linked_step s a _ h hsuits rfl
  refine ⟨fun v hv hgone id hid => ?_, fun fd hfd => s.findByFd_apply_of_ne a hfd, ?_⟩
  · obtain ⟨fd, hfd, -⟩ := (h'.mirrors.found id v).1 hid
    by_cases hsame : fd = a.fd
    · rw [hsame] at hfd
      exact hgone hfd
    · rw [s.findByFd_apply_of_ne a hsame] at hfd
      exact hsame (h.mirrors.unique fd a.fd v v hfd hv rfl)
  · intro fd v hfd hv id
    have hv' : (s.apply a).registry.findByFd fd = some v := by
      rw [s.findByFd_apply_of_ne a hfd]
      exact hv
    rw [h'.mirrors.second_eq_some_iff hv', h.mirrors.second_eq_some_iff hv,
      hsuits.ids_apply hfd hv]

/-- **When the two indexes describe the same sockets.**  They do in every state of a run, and
each call takes out what it should and no more, exactly if every record that is inserted has
the ID that the counter is about to give out, no other descriptor has that record or that ID,
and the descriptor itself has the record with that ID if it has it at all. -/
theorem sameSockets_iff (ids : V → SocketID) (as : List (Action V)) :
    (Throughout step SameSockets (start ids) as ∧ Along step ChangesOnly (start ids) as) ↔
      Along step Suits (start ids) as := by
  have hiff : Throughout step SameSockets (start ids) as ↔ Along step Suits (start ids) as := by
    apply linked_step.throughout_iff (fun s h => h.sameSockets) _ (linked_start ids)
    intro s a s' h hstep h'
    cases hstep
    cases a with
    | insert fd val left => exact h.suits_of_sameSockets h'
    | del fd => trivial
  constructor
  · exact fun hboth => hiff.1 hboth.1
  · intro hsuits
    refine ⟨hiff.2 hsuits, ?_⟩
    exact linked_step.along (fun s a _ h ha _ => h.changesOnly ha) (linked_start ids) hsuits

/-- A new record, with the ID `0`, is kept under `1`, and is still there when its descriptor was
deleted. -/
theorem not_sameSockets_of_new_record :
    ¬ Throughout step SameSockets (start fun _ : Unit => 0) [.insert 3 () 0, .del 3] ∧
      (((start fun _ : Unit => 0).apply (.insert 3 () 0)).apply (.del 3)).registry.findById 1 =
        some () := by
  constructor
  · intro h
    have hinserted : ((start fun _ : Unit => 0).apply (.insert 3 () 0)).SameSockets :=
      (h.2 _ rfl).1
    exact absurd hinserted.left_eq (by decide)
  · set s := (start fun _ : Unit => 0).apply (.insert 3 () 0) with hs
    have hold : s.registry.findByFd 3 = some () := by
      rw [hs, findByFd_apply_insert, Function.update_self]
    have hid : s.registry.findById 1 = some () := findById_apply_insert _ 3 () 0
    show (s.registry.del s.ids 3).findById 1 = some ()
    rw [DualUnorderedMapRegistry.findById_del hold, Function.update_of_ne (by decide)]
    exact hid

end Records

end ClientServer.Testcontainer
