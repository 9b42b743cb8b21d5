import ClientServer.Library.Probing

/-!
# `simple_flat_map` of `testcontainer/main.cpp`

A vector of entries with linear probing, like the class of that name in `mync`, with `uint64_t`
keys throughout.  Indexes are numbers here, an entry behind the end of the vector is a fault, and
so is a loop that has used up the turns it was given.

Calls of `insert` and `find` come out as on a finite map that takes no new key once it has as many
as the vector has entries (`callAll_refines`).
-/

namespace ClientServer.Testcontainer

/-- `simple_flat_map::Entry`. -/
structure Entry (Value : Type*) where
  key : UInt64
  occupied : Bool
  value : Value

/-- `simple_flat_map`. -/
structure SimpleFlatMap (Value : Type*) where
  entries : List (Entry Value)

/-- What a loop must not come to. -/
inductive ProbeFault
  | outOfRange
  | stillProbing
  deriving DecidableEq, Repr

namespace SimpleFlatMap

variable {Value : Type*}

/-- The constructor. -/
def new [Inhabited Value] (capacity : ℕ) : SimpleFlatMap Value :=
  ⟨List.replicate capacity ⟨-1, false, default⟩⟩

/-- `hash`. -/
def hash (m : SimpleFlatMap Value) (key : UInt64) : ℕ := key.toNat % m.entries.length

/-- The loop of `insert`, with the index it ends at; none where it returns because the table is
full. -/
def insertLoop (m : SimpleFlatMap Value) (key : UInt64) (start : ℕ) :
    ℕ → ℕ → Except ProbeFault (Option ℕ)
  | 0, _ => .error .stillProbing
  | turns + 1, index =>
    match m.entries[index]? with
    | none => .error .outOfRange
    | some entry =>
      if entry.occupied ∧ entry.key ≠ key then
        if (index + 1) % m.entries.length = start then .ok none
        else m.insertLoop key start turns ((index + 1) % m.entries.length)
      else .ok (some index)

/-- `insert`, in at most `turns` turns of its loop. -/
def insert (m : SimpleFlatMap Value) (key : UInt64) (val : Value) (turns : ℕ) :
    Except ProbeFault (SimpleFlatMap Value) :=
  (m.insertLoop key (m.hash key) turns (m.hash key)).map fun
    | none => m
    | some index => ⟨m.entries.set index ⟨key, true, val⟩⟩

/-- The loop of `find`, with the value pointed to; none is `nullptr`. -/
def findLoop (m : SimpleFlatMap Value) (key : UInt64) (start : ℕ) :
    ℕ → ℕ → Except ProbeFault (Option Value)
  | 0, _ => .error .stillProbing
  | turns + 1, index =>
    match m.entries[index]? with
    | none => .error .outOfRange
    | some entry =>
      if ¬ entry.occupied then .ok none
      else if entry.key = key ∧ entry.occupied then .ok (some entry.value)
      else if (index + 1) % m.entries.length ≠ start then
        m.findLoop key start turns ((index + 1) % m.entries.length)
      else .ok none

/-- `find`, in at most `turns` turns of its loop. -/
def find (m : SimpleFlatMap Value) (key : UInt64) (turns : ℕ) :
    Except ProbeFault (Option Value) :=
  m.findLoop key (m.hash key) turns (m.hash key)

/-! ## Calls -/

/-- A call of one of the two members. -/
inductive MapCall (Value : Type*)
  | insert (key : UInt64) (val : Value)
  | find (key : UInt64)

/-- The map after a call, and what a `find` returns. -/
def call (turns : ℕ) (m : SimpleFlatMap Value) :
    MapCall Value → Except ProbeFault (SimpleFlatMap Value × List (Option Value))
  | .insert key val => (m.insert key val turns).map (·, [])
  | .find key => (m.find key turns).map fun found => (m, [found])

/-- One call after the other. -/
def callAll (turns : ℕ) (m : SimpleFlatMap Value) :
    List (MapCall Value) → Except ProbeFault (SimpleFlatMap Value × List (Option Value))
  | [] => .ok (m, [])
  | c :: cs => do
    let (m, out) ← m.call turns c
    let (m, outs) ← m.callAll turns cs
    return (m, out ++ outs)

/-- A finite map with keys of 64 bits. -/
abbrev Reference (Value : Type*) := Finmap fun _ : UInt64 => Value

/-- The same call on a finite map that takes `capacity` keys. -/
def referenceCall (capacity : ℕ) (r : Reference Value) :
    MapCall Value → Reference Value × List (Option Value)
  | .insert key val => (ProbeTable.insertBounded capacity r key val, [])
  | .find key => (r, [r.lookup key])

/-- The same calls. -/
def referenceAll (capacity : ℕ) (r : Reference Value) :
    List (MapCall Value) → Reference Value × List (Option Value)
  | [] => (r, [])
  | c :: cs =>
    let (r, out) := referenceCall capacity r c
    let (r, outs) := referenceAll capacity r cs
    (r, out ++ outs)

/-- No key is in two occupied entries. -/
def KeysOnce (m : SimpleFlatMap Value) : Prop :=
  ∀ (i j : ℕ) (e e' : Entry Value), m.entries[i]? = some e → m.entries[j]? = some e' →
    e.occupied → e'.occupied → e.key = e'.key → i = j

/-! ## The table -/

variable {n : ℕ} {m : SimpleFlatMap Value}

/-- The occupied entries of a vector of `n`. -/
def toTable (m : SimpleFlatMap Value) (n : ℕ) : ProbeTable n UInt64 Value := fun i =>
  (m.entries[i.val]?).bind fun e => if e.occupied then some (e.key, e.value) else none

lemma toTable_eq {e : Entry Value} {i : Fin n} (h : m.entries[i.val]? = some e) :
    m.toTable n i = if e.occupied then some (e.key, e.value) else none := by
  rw [toTable, h, Option.bind_some]

lemma stops_toTable {e : Entry Value} {i : Fin n} (h : m.entries[i.val]? = some e)
    (key : UInt64) :
    (m.toTable n).stops key i = true ↔ ¬ (e.occupied ∧ e.key ≠ key) := by
  rw [ProbeTable.stops, toTable_eq h]
  cases e.occupied <;> simp

/-- An index below the size reads an entry. -/
lemma exists_entry (hlen : m.entries.length = n) (i : Fin n) :
    ∃ e, m.entries[i.val]? = some e :=
  ⟨_, List.getElem?_eq_getElem (by rw [hlen]; exact i.isLt)⟩

/-- `(index + 1) % entries.size()`. -/
lemma next_eq (hlen : m.entries.length = n) (index : Fin n) :
    (index.val + 1) % m.entries.length = (nextSlot index).val := by
  rw [hlen, nextSlot]

/-- What the loop of `insert` makes of the outcome of a probing loop. -/
def ofProbe : Option (Option (Fin n)) → Except ProbeFault (Option ℕ)
  | none => .error .stillProbing
  | some slot => .ok (slot.map Fin.val)

/-- **The loop of `insert` is a probing loop**, and all its indexes are in range. -/
lemma insertLoop_eq (hlen : m.entries.length = n) (key : UInt64) (start : Fin n) (turns : ℕ)
    (index : Fin n) :
    m.insertLoop key start turns index =
      ofProbe (probeLoop ((m.toTable n).stops key) start turns index) := by
  induction turns generalizing index with
  | zero => rfl
  | succ turns ih =>
    obtain ⟨e, he⟩ := exists_entry hlen index
    rw [insertLoop, probeLoop, he]
    simp only [next_eq hlen index]
    by_cases hother : e.occupied ∧ e.key ≠ key
    · have hstops : ¬ (m.toTable n).stops key index = true := by
        rw [stops_toTable he]
        exact not_not.mpr hother
      rw [if_pos hother, if_neg hstops, ih]
      simp only [Fin.val_inj]
      split_ifs
      · rfl
      · rfl
    · rw [if_neg hother, if_pos ((stops_toTable he key).mpr hother)]
      rfl

/-- The loop of `find` goes the same way, and returns the value where it ends. -/
lemma findLoop_eq (hlen : m.entries.length = n) (key : UInt64) (start : Fin n) (turns : ℕ)
    (index : Fin n) :
    m.findLoop key start turns index =
      match probeLoop ((m.toTable n).stops key) start turns index with
      | none => .error .stillProbing
      | some slot => .ok (slot.bind fun i => (m.toTable n i).map (·.2)) := by
  induction turns generalizing index with
  | zero => rfl
  | succ turns ih =>
    obtain ⟨e, he⟩ := exists_entry hlen index
    have hstops := stops_toTable he key
    have htable := toTable_eq he
    rw [findLoop, probeLoop, he]
    simp only [next_eq hlen index]
    by_cases hoccupied : e.occupied = true
    · rw [if_pos hoccupied] at htable
      by_cases hkey : e.key = key
      · rw [if_pos (hstops.mpr fun hother => hother.2 hkey)]
        simp [hoccupied, hkey, htable]
      · rw [if_neg (mt hstops.mp (not_not.mpr ⟨hoccupied, hkey⟩))]
        by_cases hround : nextSlot index = start
        · simp [hoccupied, hkey, hround]
        · have hne : ¬ (nextSlot index).val = start.val := mt Fin.ext hround
          simp [hoccupied, hkey, hround, hne, ih]
    · rw [if_neg hoccupied] at htable
      rw [if_pos (hstops.mpr fun hother => hoccupied hother.1)]
      simp [hoccupied, htable]

/-! ## The refinement -/

/-- The slot a key names in a vector of `n` entries. -/
def home (hn : 0 < n) (key : UInt64) : Fin n := ⟨key.toNat % n, Nat.mod_lt _ hn⟩

lemma hash_eq_home (hlen : m.entries.length = n) (hn : 0 < n) (key : UInt64) :
    m.hash key = (home hn key).val := by
  rw [hash, hlen, home]

/-- **`find` is the lookup of the table.** -/
lemma find_eq (hlen : m.entries.length = n) (hn : 0 < n) (key : UInt64) :
    m.find key n = .ok ((m.toTable n).get (home hn) key) := by
  rw [find, hash_eq_home hlen hn, findLoop_eq hlen, probeLoop_start]
  rfl

/-- Writing an entry enters it in the table. -/
lemma toTable_set (hlen : m.entries.length = n) (i : Fin n) (key : UInt64) (val : Value) :
    toTable ⟨m.entries.set i.val ⟨key, true, val⟩⟩ n =
      Function.update (m.toTable n) i (some (key, val)) := by
  funext j
  by_cases hj : j = i
  · subst hj
    have hlt : j.val < m.entries.length := by
      rw [hlen]
      exact j.isLt
    rw [Function.update_self, toTable, List.getElem?_set_self hlt]
    rfl
  · have hne : i.val ≠ j.val := fun heq => hj (Fin.ext heq.symm)
    rw [Function.update_of_ne hj, toTable, List.getElem?_set_ne hne]
    rfl

/-- **`insert` enters the key in the table.** -/
lemma insert_eq (hlen : m.entries.length = n) (hn : 0 < n) (key : UInt64) (val : Value) :
    ∃ m', m.insert key val n = .ok m' ∧ m'.entries.length = n ∧
      m'.toTable n = (m.toTable n).put (home hn) key val := by
  have hslot : (probeOrder (home hn key)).find? ((m.toTable n).stops key) =
      (m.toTable n).slot (home hn) key := rfl
  rw [insert, hash_eq_home hlen hn, insertLoop_eq hlen, probeLoop_start, hslot, ProbeTable.put]
  cases (m.toTable n).slot (home hn) key with
  | none => exact ⟨m, rfl, hlen, rfl⟩
  | some i =>
    refine ⟨⟨m.entries.set i.val ⟨key, true, val⟩⟩, rfl, ?_, toTable_set hlen i key val⟩
    rw [List.length_set]
    exact hlen

/-- The map has `capacity` entries, and in them the keys and values of the reference. -/
structure Refines (capacity : ℕ) (hcap : 0 < capacity) (m : SimpleFlatMap Value)
    (r : Reference Value) : Prop where
  length_eq : m.entries.length = capacity
  represents : ProbeTable.Represents (home hcap) (m.toTable capacity) r

variable {capacity : ℕ} {hcap : 0 < capacity} {r : Reference Value}

lemma refines_new [Inhabited Value] (capacity : ℕ) (hcap : 0 < capacity) :
    Refines capacity hcap (new capacity : SimpleFlatMap Value) ∅ := by
  refine ⟨List.length_replicate, ?_⟩
  have hempty : (new capacity : SimpleFlatMap Value).toTable capacity = ProbeTable.empty := by
    funext i
    rw [toTable, new, List.getElem?_replicate, if_pos i.isLt]
    rfl
  rw [hempty]
  exact ProbeTable.Represents.empty

/-- One call comes out as on the reference. -/
lemma Refines.call (h : Refines capacity hcap m r) (c : MapCall Value) :
    ∃ m', m.call capacity c = .ok (m', (referenceCall capacity r c).2) ∧
      Refines capacity hcap m' (referenceCall capacity r c).1 := by
  cases c with
  | insert key val =>
    obtain ⟨m', hinsert, hlen, htable⟩ := insert_eq h.length_eq hcap key val
    refine ⟨m', ?_, hlen, ?_⟩
    · rw [SimpleFlatMap.call, hinsert]
      rfl
    · rw [htable]
      exact h.represents.put key val
  | find key =>
    refine ⟨m, ?_, h⟩
    rw [SimpleFlatMap.call, find_eq h.length_eq hcap, h.represents.get_eq]
    rfl

lemma Refines.callAll (h : Refines capacity hcap m r) (cs : List (MapCall Value)) :
    ∃ m', m.callAll capacity cs = .ok (m', (referenceAll capacity r cs).2) ∧
      Refines capacity hcap m' (referenceAll capacity r cs).1 := by
  induction cs generalizing m r with
  | nil => exact ⟨m, rfl, h⟩
  | cons c cs ih =>
    obtain ⟨m₁, hcall, h₁⟩ := h.call c
    obtain ⟨m₂, hrest, h₂⟩ := ih h₁
    refine ⟨m₂, ?_, h₂⟩
    rw [SimpleFlatMap.callAll, hcall]
    simp only [bind, Except.bind, hrest]
    rfl

/-- An entry is where the probe for its key ends, so its key is in no other. -/
lemma Refines.keysOnce (h : Refines capacity hcap m r) : m.KeysOnce := by
  intro i j e e' hi hj hocc hocc' hkey
  have hlt : ∀ {k : ℕ} {e : Entry Value}, m.entries[k]? = some e → k < capacity := by
    intro k e hk
    obtain ⟨hk, -⟩ := List.getElem?_eq_some_iff.mp hk
    rwa [h.length_eq] at hk
  have hslot : ∀ {k : ℕ} {e : Entry Value} (hk : m.entries[k]? = some e), e.occupied →
      (m.toTable capacity).slot (home hcap) e.key = some ⟨k, hlt hk⟩ := by
    intro k e hk hocc
    have hentry := toTable_eq (i := ⟨k, hlt hk⟩) hk
    rw [if_pos hocc] at hentry
    exact h.represents.wellPlaced _ _ _ hentry
  have hfound := hslot hi hocc
  rw [hkey, hslot hj hocc'] at hfound
  exact (congrArg Fin.val (Option.some.inj hfound)).symm

/-- **`simple_flat_map` refines a finite map.**  With any capacity and any calls, every loop ends
within `capacity` turns and reads entries of the vector only, every `find` returns what the finite
map has, and no key is ever in two entries. -/
theorem callAll_refines [Inhabited Value] (capacity : ℕ) (hcap : 0 < capacity)
    (cs : List (MapCall Value)) :
    ∃ m', (new capacity : SimpleFlatMap Value).callAll capacity cs =
        .ok (m', (referenceAll capacity ∅ cs).2) ∧ m'.KeysOnce := by
  obtain ⟨m', hcalls, hrefines⟩ := (refines_new capacity hcap).callAll cs
  exact ⟨m', hcalls, hrefines.keysOnce⟩

/-- Three keys for two entries, the default key among them. -/
theorem callAll_refines_full :
    ∃ m', (new 2 : SimpleFlatMap ℕ).callAll 2
        [.insert (-1) 5, .insert 3 7, .insert 4 9, .insert (-1) 6, .find (-1), .find 3, .find 4] =
      .ok (m', (referenceAll 2 ∅ [.insert (-1) 5, .insert 3 7, .insert 4 9, .insert (-1) 6,
        .find (-1), .find 3, .find 4]).2) ∧ m'.KeysOnce :=
  callAll_refines 2 (by decide) _

end SimpleFlatMap

end ClientServer.Testcontainer
