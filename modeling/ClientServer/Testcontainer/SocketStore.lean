import ClientServer.Library.KeyedLists
import ClientServer.Library.Runs

/-!
# The two vector stores of `testcontainer/main.cpp`

`VectorSocketStore` scans its records in the order of the inserts; `SortedVectorSocketStore` sorts
them by descriptor at the first `find` behind an `insert` and then searches in halves.  `find`
returns a pointer to a record, which is an index here.  An `insert` into a vector without room moves
the records, which ends the use of all pointers into it; otherwise they can still be used, also
after the next sort, which may have put another record where they point.

Where a descriptor was inserted several times the plain store finds the first of its records.  The
other finds the one that `std::sort` happens to put first, so as long as no record is changed
through a pointer that the sort has left behind, the two answer alike exactly if no descriptor is
looked up that had different records at the last sort (`answerAlike_iff`).
-/

namespace ClientServer.Testcontainer.SocketStore

/-- `SocketData`. -/
structure SocketData where
  timestamp : UInt64
  data1 : Int32
  data2 : Int32
  data3 : Int32
  data4 : Int32
  deriving DecidableEq

/-- A descriptor with its record. -/
abbrev Record := ℤ × SocketData

/-- `capacity()` after an `emplace_back`; a full vector of `n` elements grows to `grow n`. -/
def capacityAfter (grow : ℕ → ℕ) (data : List Record) (capacity : ℕ) : ℕ :=
  if data.length < capacity then capacity else grow data.length

/-- `VectorSocketStore`. -/
structure VectorSocketStore where
  data : List Record
  /-- `data.capacity()`. -/
  capacity : ℕ
  deriving DecidableEq

namespace VectorSocketStore

/-- `insert`. -/
def insert (grow : ℕ → ℕ) (s : VectorSocketStore) (fd : ℤ) (socketData : SocketData) :
    VectorSocketStore :=
  ⟨s.data ++ [(fd, socketData)], capacityAfter grow s.data s.capacity⟩

/-- `find`: the scan ends at the first record of `fd`. -/
def find (s : VectorSocketStore) (fd : ℤ) : Option ℕ := firstOf s.data fd

/-- `size`. -/
def size (s : VectorSocketStore) : ℕ := s.data.length

end VectorSocketStore

/-- `SortedVectorSocketStore`. -/
structure SortedVectorSocketStore where
  data : List Record
  /-- `data.capacity()`. -/
  capacity : ℕ
  sorted : Bool
  deriving DecidableEq

namespace SortedVectorSocketStore

/-- `insert`. -/
def insert (grow : ℕ → ℕ) (s : SortedVectorSocketStore) (fd : ℤ) (socketData : SocketData) :
    SortedVectorSocketStore :=
  ⟨s.data ++ [(fd, socketData)], capacityAfter grow s.data s.capacity, false⟩

/-- The sort at the start of `find`. -/
def arrange (sort : List Record → List Record) (s : SortedVectorSocketStore) :
    SortedVectorSocketStore :=
  if ¬ s.sorted then { s with data := sort s.data, sorted := true } else s

/-- The binary search of `find`. -/
def search (s : SortedVectorSocketStore) (fd : ℤ) : Option ℕ :=
  match s.data[lowerBound s.data fd]? with
  | none => none
  | some p => if p.1 = fd then some (lowerBound s.data fd) else none

/-- `find`, with `sort` for `std::sort`. -/
def find (sort : List Record → List Record) (s : SortedVectorSocketStore) (fd : ℤ) :
    SortedVectorSocketStore × Option ℕ :=
  (s.arrange sort, (s.arrange sort).search fd)

/-- `size`. -/
def size (s : SortedVectorSocketStore) : ℕ := s.data.length

end SortedVectorSocketStore

/-! ## Both stores -/

/-- What a pointer into `data` points to; none is `nullptr`. -/
def contents (data : List Record) (pointer : Option ℕ) : Option SocketData :=
  (pointer.bind fun i => data[i]?).map (·.2)

/-- What a `find` on both stores has returned. -/
structure Found where
  fd : ℤ
  linear : Option ℕ
  optimised : Option ℕ
  /-- How many records with smaller descriptors there were. -/
  below : ℕ

/-- What does not depend on the sort. -/
def Found.view (p : Found) : ℤ × Option ℕ × ℕ := (p.fd, p.linear, p.below)

/-- Both stores, and what there is to say of their calls. -/
structure Stores where
  linear : VectorSocketStore
  optimised : SortedVectorSocketStore
  /-- The records that were there at the last sort, in the order of the inserts. -/
  arranged : List Record
  /-- The pointers that were returned since the vectors were last moved. -/
  found : List Found
  /-- What the last `find` pointed to. -/
  answers : Option SocketData × Option SocketData

/-- A call on both stores, or an update through two pointers. -/
inductive Operation
  | insert (fd : ℤ) (socketData : SocketData)
  | find (fd : ℤ)
  /-- What the pointers of the `k`-th of the usable `find`s point to is changed. -/
  | update (k : ℕ) (f : SocketData → SocketData)

namespace Stores

/-- Two empty stores. -/
def new : Stores := ⟨⟨[], 0⟩, ⟨[], 0, true⟩, [], [], none, none⟩

/-- The records that the next `find` has in order, as they were when it sorted them. -/
def toArrange (s : Stores) : List Record :=
  if s.optimised.sorted then s.arranged else s.linear.data

/-- An `emplace_back` moves no record. -/
def HasRoom (s : Stores) : Prop :=
  s.linear.data.length < s.linear.capacity ∧ s.optimised.data.length < s.optimised.capacity

instance (s : Stores) : Decidable s.HasRoom := inferInstanceAs (Decidable (_ ∧ _))

/-- One operation.  There is no update through `nullptr`. -/
def step (sort : List Record → List Record) (grow : ℕ → ℕ) (s : Stores) :
    Operation → Option Stores
  | .insert fd socketData => some
    { s with
      linear := s.linear.insert grow fd socketData
      optimised := s.optimised.insert grow fd socketData
      found := if s.HasRoom then s.found else [] }
  | .find fd =>
    let p := s.linear.find fd
    let (optimised, q) := s.optimised.find sort fd
    some
      { linear := s.linear
        optimised := optimised
        arranged := s.toArrange
        found := s.found ++ [⟨fd, p, q, below s.toArrange fd⟩]
        answers := (contents s.linear.data p, contents optimised.data q) }
  | .update k f =>
    match s.found[k]? with
    | some ⟨_, some i, some j, _⟩ => some
      { s with
        linear := { s.linear with data := modifyValue s.linear.data i f }
        optimised := { s.optimised with data := modifyValue s.optimised.data j f } }
    | _ => none

/-- The last `find` pointed to equal records, and the sizes are equal. -/
def AnswerAlike (s : Stores) : Prop :=
  s.answers.1 = s.answers.2 ∧ s.linear.size = s.optimised.size

instance (s : Stores) : Decidable s.AnswerAlike := inferInstanceAs (Decidable (_ ∧ _))

/-- A descriptor that is looked up had equal records only when they were sorted. -/
def Unambiguous (s : Stores) : Operation → Prop
  | .find fd => Single s.toArrange fd
  | _ => True

instance (s : Stores) : DecidablePred s.Unambiguous
  | .find fd => inferInstanceAs (Decidable (Single s.toArrange fd))
  | .insert .. | .update .. => isTrue trivial

/-- A record that is changed is where it was when the pointer to it was returned: since then no
record has come before it in the order that the last sort went by, nor a different one with the same
descriptor. -/
def InPlace (s : Stores) : Operation → Prop
  | .update k _ => ∀ p ∈ s.found[k]?, Single s.arranged p.fd ∧ below s.arranged p.fd = p.below
  | _ => True

instance (s : Stores) : DecidablePred s.InPlace
  | .update k _ => inferInstanceAs (Decidable (∀ p ∈ s.found[k]?, _ ∧ _))
  | .insert .. | .find _ => isTrue trivial

variable {sort sort' : List Record → List Record} {grow : ℕ → ℕ} {s s' t : Stores}

/-! ## What the two stores have in common -/

/-- Since the last sort, with a descriptor that was ambiguous then nothing has happened, and the
records stand where they stood. -/
structure Arranged (sort : List Record → List Record) (arranged linear optimised : List Record) :
    Prop where
  inOrder : optimised.Pairwise fun p q => p.1 ≤ q.1
  keys : linear.map (·.1) = arranged.map (·.1)
  ambiguous : ∃ l, l.Perm arranged ∧ ∀ fd, ¬ Single arranged fd →
    matching linear fd = matching arranged fd ∧ matching optimised fd = matching (sort l) fd

/-- The pointers that a `find` returned point to the first record of the descriptor, in the first
store for good, and in the second as long as no record has come before it. -/
structure Pointed (s : Stores) (p : Found) : Prop where
  linear : ∀ i, p.linear = some i → firstOf s.linear.data p.fd = some i
  optimised : ∀ j, p.optimised = some j → j = p.below ∧
    (below s.arranged p.fd = p.below → firstOf s.optimised.data p.fd = some j)
  both : p.linear.isSome = p.optimised.isSome

/-- The invariant: the stores have the same records, those of a descriptor that was not ambiguous in
the same order, and the usable pointers point to the first of them. -/
structure Alike (sort : List Record → List Record) (s : Stores) : Prop where
  perm : s.optimised.data.Perm s.linear.data
  capacity : s.optimised.capacity = s.linear.capacity
  single : ∀ fd, Single s.arranged fd →
    matching s.optimised.data fd = matching s.linear.data fd
  arranged : s.optimised.sorted = true →
    Arranged sort s.arranged s.linear.data s.optimised.data
  found : ∀ p ∈ s.found, s.Pointed p
  answers : s.answers.1 = s.answers.2

lemma alike_new (hsort : IsSort sort) : new.Alike sort := by
  have hnil : sort [] = [] := (hsort.perm []).eq_nil
  refine ⟨List.Perm.nil, rfl, fun _ _ => rfl, fun _ => ⟨List.Pairwise.nil, rfl, [], List.Perm.nil,
    ?_⟩, fun _ hp => absurd hp List.not_mem_nil, rfl⟩
  rintro fd -
  rw [hnil]
  exact ⟨rfl, rfl⟩

lemma Alike.answerAlike (h : s.Alike sort) : s.AnswerAlike :=
  ⟨h.answers, h.perm.length_eq.symm⟩

/-- Both vectors have room, or neither. -/
lemma Alike.hasRoom_iff (h : s.Alike sort) :
    s.HasRoom ↔ s.linear.data.length < s.linear.capacity := by
  rw [HasRoom, h.perm.length_eq, h.capacity, and_self]

/-- Where one store has a record the other has one. -/
lemma firstOf_eq_none_iff_of_perm {l l' : List Record} (h : l.Perm l') (fd : ℤ) :
    firstOf l fd = none ↔ firstOf l' fd = none := by
  have hperm := perm_matching h fd
  rw [firstOf_eq_none_iff, firstOf_eq_none_iff]
  constructor
  · intro hnil
    rw [hnil] at hperm
    exact hperm.symm.eq_nil
  · intro hnil
    rw [hnil] at hperm
    exact hperm.eq_nil

/-- What is found is the first record. -/
lemma contents_firstOf (data : List Record) (fd : ℤ) :
    contents data (firstOf data fd) = (matching data fd).head?.map (·.2) := by
  rw [contents, bind_firstOf]

/-- The stores, once the second has been sorted for a `find`. -/
def arrange (sort : List Record → List Record) (s : Stores) : Stores :=
  { s with optimised := s.optimised.arrange sort, arranged := s.toArrange }

/-- A sort leaves a record in place before which none has come. -/
lemma Pointed.arrange {p : Found} (h : s.Pointed p) {data : List Record}
    (hperm : data.Perm s.linear.data) (hdata : data.Pairwise fun p q => p.1 ≤ q.1) :
    Pointed { s with
      optimised := { s.optimised with data := data, sorted := true }
      arranged := s.linear.data } p := by
  refine ⟨h.linear, fun j hj => ⟨(h.optimised j hj).1, fun hbelow => ?_⟩, h.both⟩
  have hsome : p.linear.isSome := by
    rw [h.both, hj]
    rfl
  obtain ⟨i, hi⟩ := Option.isSome_iff_exists.mp hsome
  have hfirst : firstOf data p.fd ≠ none := by
    rw [ne_eq, firstOf_eq_none_iff_of_perm hperm, h.linear i hi]
    exact Option.some_ne_none i
  show firstOf data p.fd = some j
  rw [firstOf_eq_below hdata hfirst, below_eq_of_perm hperm, (h.optimised j hj).1]
  exact congrArg some hbelow

/-- Sorting puts equal records in the one order there is, and the others in some order. -/
lemma Alike.arrange (h : s.Alike sort) (hsort : IsSort sort) :
    (s.arrange sort).Alike sort ∧ (s.arrange sort).optimised.sorted = true := by
  by_cases hsorted : s.optimised.sorted = true
  · have hsame : s.arrange sort = s := by
      rw [Stores.arrange, SortedVectorSocketStore.arrange, if_neg (not_not.mpr hsorted), toArrange,
        if_pos hsorted]
    rw [hsame]
    exact ⟨h, hsorted⟩
  · have hdata : s.arrange sort = { s with
        optimised := { s.optimised with data := sort s.optimised.data, sorted := true }
        arranged := s.linear.data } := by
      rw [Stores.arrange, SortedVectorSocketStore.arrange, if_pos hsorted, toArrange,
        if_neg hsorted]
    rw [hdata]
    have hperm : (sort s.optimised.data).Perm s.linear.data :=
      (hsort.perm s.optimised.data).trans h.perm
    refine ⟨⟨hperm, h.capacity, fun fd hsingle => hsingle.matching_eq hperm,
      fun _ => ⟨hsort.sorted _, rfl, s.optimised.data, h.perm, fun fd _ => ⟨rfl, rfl⟩⟩,
      fun p hp => (h.found p hp).arrange hperm (hsort.sorted _), h.answers⟩, rfl⟩

/-- In a sorted store the search ends at the first record. -/
lemma search_eq {o : SortedVectorSocketStore} (h : o.data.Pairwise fun p q => p.1 ≤ q.1)
    (fd : ℤ) : o.search fd = firstOf o.data fd := by
  rw [firstOf_eq_lowerBound h fd, SortedVectorSocketStore.search]
  cases o.data[lowerBound o.data fd]? <;> rfl

/-! ## One operation -/

lemma Alike.insert (h : s.Alike sort) (fd : ℤ) (socketData : SocketData)
    (hstep : s.step sort grow (.insert fd socketData) = some s') : s'.Alike sort := by
  cases hstep
  refine ⟨h.perm.append_right _, ?_, fun fd' hsingle => ?_, fun hsorted => ?_, fun p hp => ?_,
    h.answers⟩
  · show capacityAfter grow s.optimised.data s.optimised.capacity =
      capacityAfter grow s.linear.data s.linear.capacity
    rw [capacityAfter, capacityAfter, h.perm.length_eq, h.capacity]
  · show matching (s.optimised.data ++ _) fd' = matching (s.linear.data ++ _) fd'
    rw [matching_append, matching_append, h.single fd' hsingle]
  · cases hsorted
  · have hp : p ∈ if s.HasRoom then s.found else [] := hp
    split_ifs at hp
    · have hold := h.found p hp
      exact ⟨fun i hi => firstOf_append (hold.linear i hi) _,
        fun j hj => (hold.optimised j hj).imp_right fun hfirst hbelow =>
          firstOf_append (hfirst hbelow) _, hold.both⟩
    · cases hp

/-- What a `find` comes to. -/
lemma step_find (h : s.Alike sort) (hsort : IsSort sort) (fd : ℤ)
    (hstep : s.step sort grow (.find fd) = some s') :
    s' = { s.arrange sort with
      found := s.found ++ [⟨fd, firstOf s.linear.data fd,
        firstOf (s.arrange sort).optimised.data fd, below s.toArrange fd⟩]
      answers := ((matching s.linear.data fd).head?.map (·.2),
        (matching (s.arrange sort).optimised.data fd).head?.map (·.2)) } := by
  obtain ⟨hs, hsorted⟩ := h.arrange hsort
  have hsearch : (s.optimised.arrange sort).search fd =
      firstOf (s.arrange sort).optimised.data fd := search_eq (hs.arranged hsorted).inOrder fd
  cases hstep
  simp only [hsearch, VectorSocketStore.find]
  rw [contents_firstOf, show (s.optimised.arrange sort).data = (s.arrange sort).optimised.data
    from rfl, contents_firstOf]
  rfl

lemma Alike.find (h : s.Alike sort) (hsort : IsSort sort) (fd : ℤ)
    (hsingle : s.Unambiguous (.find fd)) (hstep : s.step sort grow (.find fd) = some s') :
    s'.Alike sort := by
  obtain ⟨hs, hsorted⟩ := h.arrange hsort
  rw [step_find h hsort fd hstep]
  have harranged := hs.arranged hsorted
  refine ⟨hs.perm, hs.capacity, hs.single, hs.arranged, fun p hp => ?_, ?_⟩
  · rcases List.mem_append.mp hp with hp | hp
    · have hold := hs.found p hp
      exact ⟨hold.linear, hold.optimised, hold.both⟩
    · rw [List.mem_singleton.mp hp]
      refine ⟨fun i hi => hi, fun j hj => ⟨?_, fun _ => hj⟩, ?_⟩
      · have hj : firstOf (s.arrange sort).optimised.data fd = some j := hj
        have hfirst := firstOf_eq_below harranged.inOrder (hj ▸ Option.some_ne_none j)
        rw [hj, Option.some_inj] at hfirst
        rw [hfirst, below_eq_of_perm hs.perm]
        exact below_eq_of_keys harranged.keys fd
      · show (firstOf s.linear.data fd).isSome =
          (firstOf (s.arrange sort).optimised.data fd).isSome
        rw [Bool.eq_iff_iff, ← Option.ne_none_iff_isSome, ← Option.ne_none_iff_isSome, ne_eq, ne_eq,
          firstOf_eq_none_iff_of_perm hs.perm]
        rfl
  · show (matching s.linear.data fd).head?.map (·.2) = _
    rw [hs.single fd hsingle]
    rfl

/-- The first records of a descriptor that is not ambiguous are changed in both stores. -/
lemma Alike.modify (h : s.Alike sort) {fd : ℤ} (hsingle : Single s.arranged fd) {i j : ℕ}
    (hi : firstOf s.linear.data fd = some i) (hj : firstOf s.optimised.data fd = some j)
    (f : SocketData → SocketData) : Alike sort { s with
      linear := { s.linear with data := modifyValue s.linear.data i f }
      optimised := { s.optimised with data := modifyValue s.optimised.data j f } } := by
  have hlinear := matching_modifyValue f hi
  have hoptimised := matching_modifyValue f hj
  -- with each descriptor the stores still have the same records
  have hmatching : ∀ fd',
      (matching (modifyValue s.optimised.data j f) fd').Perm
        (matching (modifyValue s.linear.data i f) fd') := by
    intro fd'
    rw [hlinear, hoptimised]
    split_ifs with hfd
    · rw [hfd, h.single fd hsingle]
    · exact perm_matching h.perm fd'
  refine ⟨perm_of_matching hmatching, h.capacity, fun fd' hsingle' => ?_, fun hsorted => ?_,
    fun p hp => ?_, h.answers⟩
  · show matching (modifyValue s.optimised.data j f) fd' =
      matching (modifyValue s.linear.data i f) fd'
    rw [hlinear, hoptimised, h.single fd' hsingle']
  · have harranged := h.arranged hsorted
    refine ⟨?_, (map_fst_modifyValue _ i f).trans harranged.keys, ?_⟩
    · have hkeys := List.pairwise_map.mpr harranged.inOrder
      rw [← map_fst_modifyValue _ j f] at hkeys
      exact List.pairwise_map.mp hkeys
    · obtain ⟨l, hl, hkept⟩ := harranged.ambiguous
      refine ⟨l, hl, fun fd' hambiguous => ?_⟩
      have hne : fd' ≠ fd := by
        rintro rfl
        exact hambiguous hsingle
      show matching (modifyValue s.linear.data i f) fd' = _ ∧
        matching (modifyValue s.optimised.data j f) fd' = _
      rw [hlinear, hoptimised, if_neg hne, if_neg hne]
      exact hkept fd' hambiguous
  · have hold := h.found p hp
    refine ⟨fun i' hi' => ?_, fun j' hj' =>
      (hold.optimised j' hj').imp_right fun hfirst hbelow => ?_, hold.both⟩
    · exact (firstOf_modifyValue _ i f p.fd).trans (hold.linear i' hi')
    · exact (firstOf_modifyValue _ j f p.fd).trans (hfirst hbelow)

lemma Alike.update (h : s.Alike sort) (k : ℕ) (f : SocketData → SocketData)
    (hplace : s.InPlace (.update k f)) (hstep : s.step sort grow (.update k f) = some s') :
    s'.Alike sort := by
  simp only [step] at hstep
  split at hstep
  case h_2 => cases hstep
  case h_1 fd i j b hk =>
  cases hstep
  obtain ⟨hsingle, hbelow⟩ := hplace _ hk
  have hpointed := h.found _ (List.mem_of_getElem? hk)
  exact h.modify hsingle (hpointed.linear i rfl) ((hpointed.optimised j rfl).2 hbelow) f

lemma preserves_alike (hsort : IsSort sort) :
    Preserves (step sort grow) (fun s a => s.InPlace a ∧ s.Unambiguous a) (Alike sort) := by
  rintro s a s' h ⟨hplace, hunambiguous⟩ hstep
  cases a with
  | insert fd socketData => exact h.insert fd socketData hstep
  | find fd => exact h.find hsort fd hunambiguous hstep
  | update k f => exact h.update k f hplace hstep

/-! ## Another sort -/

/-- The stores are the same up to what the sort has done. -/
structure SameView (s t : Stores) : Prop where
  linear : s.linear = t.linear
  sorted : s.optimised.sorted = t.optimised.sorted
  arranged : s.arranged = t.arranged
  found : s.found.map Found.view = t.found.map Found.view

lemma SameView.toArrange_eq (h : SameView s t) : s.toArrange = t.toArrange := by
  rw [toArrange, toArrange, h.sorted, h.arranged, h.linear]

/-- The same pointers are there to be used. -/
lemma SameView.exists_found (h : SameView s t) {k : ℕ} {p : Found} (hp : s.found[k]? = some p) :
    ∃ q, t.found[k]? = some q ∧ q.view = p.view := by
  have hview : (t.found.map Found.view)[k]? = some p.view := by
    rw [← h.found, List.getElem?_map, hp]
    rfl
  rw [List.getElem?_map] at hview
  exact Option.map_eq_some_iff.mp hview

lemma SameView.symm (h : SameView s t) : SameView t s :=
  ⟨h.linear.symm, h.sorted.symm, h.arranged.symm, h.found.symm⟩

lemma SameView.unambiguous (h : SameView s t) {a : Operation} (ha : s.Unambiguous a) :
    t.Unambiguous a := by
  cases a with
  | find fd =>
    show Single t.toArrange fd
    rw [← h.toArrange_eq]
    exact ha
  | insert fd socketData => trivial
  | update k f => trivial

lemma SameView.inPlace (h : SameView s t) {a : Operation} (ha : s.InPlace a) : t.InPlace a := by
  cases a with
  | update k f =>
    intro q hq
    obtain ⟨p, hp, hview⟩ := h.symm.exists_found hq
    obtain ⟨hfd, -, hbelow⟩ : p.fd = q.fd ∧ p.linear = q.linear ∧ p.below = q.below := by
      simpa only [Found.view, Prod.mk.injEq] using hview
    rw [← h.arranged, ← hfd, ← hbelow]
    exact ha p hp
  | insert fd socketData => trivial
  | find fd => trivial

/-- With another sort the same operations can be performed. -/
lemma SameView.step (h : SameView s t) (hs : s.Alike sort) (ht : t.Alike sort') {a : Operation}
    (hstep : s.step sort grow a = some s') :
    ∃ t', t.step sort' grow a = some t' ∧ SameView s' t' := by
  cases a with
  | insert fd socketData =>
    cases hstep
    refine ⟨_, rfl, congrArg (VectorSocketStore.insert grow · fd socketData) h.linear, rfl,
      h.arranged, ?_⟩
    show (if s.HasRoom then s.found else []).map Found.view =
      (if t.HasRoom then t.found else []).map Found.view
    simp only [hs.hasRoom_iff, ht.hasRoom_iff, h.linear]
    split_ifs
    · exact h.found
    · rfl
  | find fd =>
    cases hstep
    refine ⟨_, rfl, h.linear, ?_, h.toArrange_eq, ?_⟩
    · show (s.optimised.arrange sort).sorted = (t.optimised.arrange sort').sorted
      rw [SortedVectorSocketStore.arrange, SortedVectorSocketStore.arrange, ← h.sorted]
      split_ifs
      · exact h.sorted
      · rfl
    · simp only [List.map_append, h.found, List.map_singleton, Found.view, h.linear,
        h.toArrange_eq]
  | update k f =>
    simp only [Stores.step] at hstep
    split at hstep
    case h_2 => cases hstep
    case h_1 fd i j b hk =>
    cases hstep
    obtain ⟨⟨fd', linear, optimised, b'⟩, hq, hview⟩ := h.exists_found hk
    obtain ⟨-, rfl, -⟩ : fd' = fd ∧ linear = some i ∧ b' = b := by
      simpa only [Found.view, Prod.mk.injEq] using hview
    have hboth : (some i).isSome = optimised.isSome := (ht.found _ (List.mem_of_getElem? hq)).both
    obtain ⟨j', rfl⟩ := Option.isSome_iff_exists.mp hboth.symm
    refine ⟨{ t with
      linear := { t.linear with data := modifyValue t.linear.data i f }
      optimised := { t.optimised with data := modifyValue t.optimised.data j' f } }, ?_, ?_⟩
    · simp only [Stores.step, hq]
    · refine ⟨?_, h.sorted, h.arranged, h.found⟩
      show VectorSocketStore.mk _ _ = VectorSocketStore.mk _ _
      rw [h.linear]

/-- Whether the operations meet the conditions does not depend on the sort. -/
lemma SameView.along (h : SameView s t) (hs : s.Alike sort) (ht : t.Alike sort')
    (hsort : IsSort sort) (hsort' : IsSort sort') {ops : List Operation}
    (hall : Along (Stores.step sort grow) (fun s a => s.InPlace a ∧ s.Unambiguous a) s ops) :
    Along (Stores.step sort' grow) (fun s a => s.InPlace a ∧ s.Unambiguous a) t ops := by
  induction ops generalizing s t with
  | nil => trivial
  | cons a ops ih =>
    intro t' htstep
    obtain ⟨s', hstep, hview⟩ := h.symm.step ht hs htstep
    obtain ⟨⟨hplace, hunambiguous⟩, hrest⟩ := hall s' hstep
    have ha : t.InPlace a ∧ t.Unambiguous a := ⟨h.inPlace hplace, h.unambiguous hunambiguous⟩
    exact ⟨ha, ih hview.symm (preserves_alike hsort s a s' hs ⟨hplace, hunambiguous⟩ hstep)
      (preserves_alike hsort' t a t' ht ha htstep) hrest⟩

/-- Among different records there is one that is not the first. -/
lemma exists_ne_head {l : List Record} {fd : ℤ} (h : ¬ Single l fd) :
    ∃ r ∈ matching l fd, (matching l fd).head? ≠ some r := by
  by_contra hall
  push Not at hall
  refine h fun p hp q hq => ?_
  exact Option.some.inj ((hall p hp).symm.trans (hall q hq))

/-- A sort that prefers another record than the first lets the `find` go wrong. -/
lemma not_answerAlike_of_ambiguous {r : Record} {fd : ℤ} (h : s.Alike (preferring r))
    (hambiguous : ¬ Single s.toArrange fd) (hr : r ∈ matching s.toArrange fd)
    (hfirst : (matching s.toArrange fd).head? ≠ some r)
    (hstep : s.step (preferring r) grow (.find fd) = some s') : ¬ s'.AnswerAlike := by
  obtain ⟨hrmem, rfl⟩ := mem_matching.mp hr
  obtain ⟨hs, hsorted⟩ := h.arrange (isSort_preferring r)
  obtain ⟨l, hl, hkept⟩ := (hs.arranged hsorted).ambiguous
  obtain ⟨hlinear, hoptimised⟩ := hkept r.1 hambiguous
  have hlinear' : matching s.linear.data r.1 = matching s.toArrange r.1 := hlinear
  rw [step_find h (isSort_preferring r) r.1 hstep]
  rintro ⟨hanswers, -⟩
  have hheads : (matching s.linear.data r.1).head?.map (·.2) =
      (matching (s.arrange (preferring r)).optimised.data r.1).head?.map (·.2) := hanswers
  rw [hlinear', hoptimised, head?_matching_preferring (hl.mem_iff.mpr hrmem)] at hheads
  obtain ⟨p, hp, hpr⟩ := Option.map_eq_some_iff.mp hheads
  have hkey := (mem_matching.mp (List.mem_of_mem_head? hp)).2
  exact hfirst (hp.trans (congrArg some (Prod.ext hkey hpr)))

/-- A run that looks an ambiguous descriptor up goes wrong with some sort. -/
lemma exists_sort_of_not_along (hsort : IsSort sort) (h : s.Alike sort) (ops : List Operation)
    (hplace : Along (step sort grow) InPlace s ops)
    (hnot : ¬ Along (step sort grow) Unambiguous s ops) :
    ∃ r, ∀ t, SameView s t → t.Alike (preferring r) →
      ¬ Throughout (step (preferring r) grow) AnswerAlike t ops := by
  induction ops generalizing s with
  | nil => exact absurd trivial hnot
  | cons a ops ih =>
    simp only [Along, not_forall] at hnot
    obtain ⟨s', hstep, hnot⟩ := hnot
    obtain ⟨haplace, hrestplace⟩ := hplace s' hstep
    by_cases ha : s.Unambiguous a
    · have hs' := preserves_alike hsort s a s' h ⟨haplace, ha⟩ hstep
      obtain ⟨r, hr⟩ := ih hs' hrestplace fun hrest => hnot ⟨ha, hrest⟩
      refine ⟨r, fun t hview ht hall => ?_⟩
      obtain ⟨t', htstep, hview'⟩ := hview.step h ht hstep
      exact hr t' hview' (preserves_alike (isSort_preferring r) t a t' ht
        ⟨hview.inPlace haplace, hview.unambiguous ha⟩ htstep) (hall.2 t' htstep)
    · cases a with
      | insert fd socketData => exact absurd trivial ha
      | update k f => exact absurd trivial ha
      | find fd =>
        obtain ⟨r, hr, hfirst⟩ := exists_ne_head ha
        refine ⟨r, fun t hview ht hall => ?_⟩
        obtain ⟨t', htstep, -⟩ := hview.step h ht hstep
        rw [Unambiguous, hview.toArrange_eq] at ha
        rw [hview.toArrange_eq] at hr hfirst
        refine not_answerAlike_of_ambiguous ht ha hr hfirst htstep ?_
        cases ops with
        | nil => exact hall.2 t' htstep
        | cons b ops => exact (hall.2 t' htstep).1

/-- **When the two stores answer alike.**  As long as every record that is changed is where it was
when the pointer to it was returned: whatever permutation in order `std::sort` yields, every `find`
returns equal records and the sizes agree, exactly if no descriptor is looked up that had different
records when they were sorted. -/
theorem answerAlike_iff (grow : ℕ → ℕ) (ops : List Operation)
    (hplace : ∀ sort, IsSort sort → Along (step sort grow) InPlace new ops) :
    (∀ sort, IsSort sort → Throughout (step sort grow) AnswerAlike new ops) ↔
      ∀ sort, IsSort sort → Along (step sort grow) Unambiguous new ops := by
  constructor
  · intro hall sort hsort
    by_contra hnot
    obtain ⟨r, hr⟩ :=
      exists_sort_of_not_along hsort (alike_new hsort) ops (hplace sort hsort) hnot
    exact hr new ⟨rfl, rfl, rfl, rfl⟩ (alike_new (isSort_preferring r))
      (hall _ (isSort_preferring r))
  · intro hall sort hsort
    exact (preserves_alike hsort).throughout (fun _ hs => hs.answerAlike) (alike_new hsort)
      ((hplace sort hsort).and (hall sort hsort))

/-- A record with this in its first field. -/
def record (data1 : Int32) : SocketData := ⟨0, data1, 0, 0, 0⟩

/-- One descriptor that is inserted twice with the same record, and another one whose record is
changed through a pointer that was kept over an insert and a sort. -/
def keptPointer : List Operation :=
  [.insert 9 (record 1), .insert 5 (record 2), .insert 7 (record 3), .insert 5 (record 2), .find 7,
    .insert 8 (record 4), .find 5, .update 0 fun _ => record 6, .find 7, .find 8]

theorem answerAlike_iff_kept_pointer :
    (∀ sort : List Record → List Record, IsSort sort →
      Throughout (step sort (2 * · + 1)) AnswerAlike new keptPointer) ∧
    ¬ ∀ sort : List Record → List Record, IsSort sort →
      Throughout (step sort (2 * · + 1)) AnswerAlike new
        [.insert 9 (record 1), .find 9, .insert 9 (record 5), .find 9] := by
  constructor
  · have hall : ∀ sort : List Record → List Record, IsSort sort →
        Along (step sort (2 * · + 1)) (fun s a => s.InPlace a ∧ s.Unambiguous a) new
          keptPointer := by
      intro sort hsort
      have hone : IsSort (preferring ((5, record 2) : Record)) := isSort_preferring _
      exact SameView.along ⟨rfl, rfl, rfl, rfl⟩ (alike_new hone) (alike_new hsort) hone hsort
        (by decide)
    exact (answerAlike_iff _ keptPointer fun sort hsort => (hall sort hsort).imp
      fun _ _ h => h.1).mpr fun sort hsort => (hall sort hsort).imp fun _ _ h => h.2
  · intro hall
    -- no pointer is used, and the second `find` meets both records
    have hunambiguous := (answerAlike_iff _ _ fun _ _ => along_of_mem (by simp [InPlace]) _).mp
      hall (preferring (9, record 1)) (isSort_preferring _)
    exact absurd hunambiguous (by decide)

/-- Behind the pointer a smaller descriptor is sorted in, and the pointer is used. -/
example : ¬ Throughout (step (preferring (5, record 1)) (2 * · + 1)) AnswerAlike new
    [.insert 5 (record 1), .insert 7 (record 2), .find 5, .insert 3 (record 3), .find 3,
      .update 0 fun _ => record 6, .find 5] := by decide

/-- One descriptor inserted twice, and a sort that puts the second record first. -/
theorem not_answerAlike_inserted_twice :
    ¬ ∀ (ops : List Operation) (sort : List Record → List Record), IsSort sort →
      Throughout (step sort (2 * · + 1)) AnswerAlike new ops := by
  intro hall
  exact absurd (hall [.insert 5 (record 1), .insert 5 (record 2), .find 5]
    (preferring (5, record 2)) (isSort_preferring _)) (by decide)

end Stores

end ClientServer.Testcontainer.SocketStore
