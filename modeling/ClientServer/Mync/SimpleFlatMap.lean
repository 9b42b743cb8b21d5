import ClientServer.Library.Probing
import Mathlib.Algebra.GroupWithZero.Nat

/-!
# `mync/simple_flat_map.h`

A vector of entries with linear probing.  `insert` and `find` have a loop each, which the two
`*Loop` functions follow turn by turn; both end where the probe of `ProbeTable` does, so the map
is such a table (`toTable_insert`, `find_eq_get`).

`find` takes a key of 64 bits and `insert` one of 32, to which a caller's key is converted.  The
hash, the comparison and the stored key are of the number converted back.  So the map is one over
the keys that the two conversions keep, and over no others (`mapsEveryKey_iff`).
-/

namespace ClientServer.Mync

/-- `simple_flat_map::Entry`. -/
structure Entry (Value : Type*) where
  key : UInt64
  occupied : Bool
  value : Value

/-- `simple_flat_map` with a vector of `n` entries. -/
structure SimpleFlatMap (Value : Type*) (n : ℕ) where
  entries : Fin n → Entry Value

/-- A `uint64_t` passed for an `int`. -/
def toInt (k : UInt64) : Int32 := k.toUInt32.toInt32

/-- An `int` where a `uint64_t` is needed. -/
def ofInt (k : Int32) : UInt64 := k.toInt64.toUInt64

/-- Sign extension keeps an `int`. -/
lemma toInt_ofInt (k : Int32) : toInt (ofInt k) = k := by
  have hbits : (k.toBitVec.signExtend 64).setWidth 32 = k.toBitVec := by
    ext i hi
    rw [BitVec.getElem_setWidth, BitVec.getLsbD_signExtend]
    simp [hi]
    omega
  exact Int32.toBitVec_inj.mp hbits

namespace SimpleFlatMap

variable {Value : Type*} {n : ℕ}

/-- The constructor. -/
def new [Inhabited Value] : SimpleFlatMap Value n := ⟨fun _ => ⟨-1, false, default⟩⟩

/-- `hash`. -/
def hash [NeZero n] (key : UInt64) : Fin n := ⟨key.toNat % n, Nat.mod_lt _ (Nat.pos_of_neZero n)⟩

/-- `(index + 1) % entries.size()`. -/
def next (index : Fin n) : Fin n := ⟨(index.val + 1) % n, Nat.mod_lt _ index.pos⟩

/-- The loop of `insert`, with the index it ends at; none where it returns because the table is
full.  The number bounds its turns. -/
def insertLoop (m : SimpleFlatMap Value n) (key : UInt64) (start : Fin n) :
    ℕ → Fin n → Option (Fin n)
  | 0, _ => none
  | turns + 1, index =>
    if (m.entries index).occupied ∧ (m.entries index).key ≠ key then
      if next index = start then none else m.insertLoop key start turns (next index)
    else some index

/-- `insert`: the argument is an `int`, and everything else a `uint64_t`. -/
def insert [NeZero n] (m : SimpleFlatMap Value n) (key : Int32) (val : Value) :
    SimpleFlatMap Value n :=
  let start : Fin n := hash (ofInt key)
  match m.insertLoop (ofInt key) start n start with
  | none => m
  | some index => ⟨Function.update m.entries index ⟨ofInt key, true, val⟩⟩

/-- The loop of `find`. -/
def findLoop (m : SimpleFlatMap Value n) (key : UInt64) (start : Fin n) :
    ℕ → Fin n → Option Value
  | 0, _ => none
  | turns + 1, index =>
    if ¬ (m.entries index).occupied then none
    else if (m.entries index).key = key ∧ (m.entries index).occupied then
      some (m.entries index).value
    else if next index ≠ start then m.findLoop key start turns (next index)
    else none

/-- `find`; none is `nullptr`. -/
def find [NeZero n] (m : SimpleFlatMap Value n) (key : UInt64) : Option Value :=
  m.findLoop key (hash key) n (hash key)

/-- Calls `insert(k, v)` one after the other, with keys of 64 bits. -/
def insertAll [NeZero n] (m : SimpleFlatMap Value n) (ps : List (UInt64 × Value)) :
    SimpleFlatMap Value n :=
  ps.foldl (fun m p => m.insert (toInt p.1) p.2) m

/-! ## The keys that arrive -/

/-- The assignments with the keys that arrive. -/
def converted (ps : List (UInt64 × Value)) : List (UInt64 × Value) :=
  ps.map fun p => (ofInt (toInt p.1), p.2)

/-- The conversions make no more keys out of those passed. -/
lemma card_converted_le (ps : List (UInt64 × Value)) :
    ((converted ps).map (·.1)).toFinset.card ≤ (ps.map (·.1)).toFinset.card := by
  have himage : ((converted ps).map (·.1)).toFinset =
      (ps.map (·.1)).toFinset.image fun k => ofInt (toInt k) := by
    ext k
    simp [converted]
  rw [himage]
  exact Finset.card_image_le

/-- A key that the conversions change does not arrive. -/
lemma lastValue_converted_of_changed (ps : List (UInt64 × Value)) {k : UInt64}
    (h : ofInt (toInt k) ≠ k) : lastValue (converted ps) k = none := by
  rw [lastValue_eq_none_iff]
  intro hk
  obtain ⟨p, hp, rfl⟩ := List.mem_map.mp hk
  obtain ⟨q, -, rfl⟩ := List.mem_map.mp hp
  exact h (by rw [toInt_ofInt])

/-! ## The table -/

/-- The occupied entries. -/
def toTable (m : SimpleFlatMap Value n) : ProbeTable n UInt64 Value := fun i =>
  if (m.entries i).occupied then some ((m.entries i).key, (m.entries i).value) else none

lemma stops_toTable (m : SimpleFlatMap Value n) (key : UInt64) (i : Fin n) :
    m.toTable.stops key i = true ↔ ¬ ((m.entries i).occupied ∧ (m.entries i).key ≠ key) := by
  unfold ProbeTable.stops toTable
  cases (m.entries i).occupied <;> simp

/-- The loop of `insert` is a probing loop. -/
lemma insertLoop_eq (m : SimpleFlatMap Value n) (key : UInt64) (start : Fin n) (turns : ℕ)
    (index : Fin n) :
    m.insertLoop key start turns index =
      (probeLoop (m.toTable.stops key) start turns index).join := by
  induction turns generalizing index with
  | zero => rfl
  | succ turns ih =>
    rw [insertLoop, probeLoop]
    by_cases hother : (m.entries index).occupied ∧ (m.entries index).key ≠ key
    · have hstops : ¬ m.toTable.stops key index = true := by
        rw [stops_toTable]
        exact not_not.mpr hother
      rw [if_pos hother, if_neg hstops, ih, show nextSlot index = next index from rfl]
      split_ifs
      · rfl
      · rfl
    · rw [if_neg hother, if_pos ((stops_toTable m key index).mpr hother)]
      rfl

/-- The loop of `find` goes the same way, and returns the value where it ends. -/
lemma findLoop_eq (m : SimpleFlatMap Value n) (key : UInt64) (start : Fin n) (turns : ℕ)
    (index : Fin n) :
    m.findLoop key start turns index =
      (m.insertLoop key start turns index).bind fun i => (m.toTable i).map (·.2) := by
  induction turns generalizing index with
  | zero => rfl
  | succ turns ih =>
    rw [findLoop, insertLoop]
    by_cases hoccupied : (m.entries index).occupied = true
    · by_cases hkey : (m.entries index).key = key
      · simp [hoccupied, hkey, toTable]
      · by_cases hnext : next index = start
        · simp [hoccupied, hkey, hnext]
        · simp [hoccupied, hkey, hnext, ih]
    · simp [hoccupied, toTable]

lemma toTable_new [Inhabited Value] :
    (new : SimpleFlatMap Value n).toTable = ProbeTable.empty := rfl

variable [NeZero n]

/-- The loop of `insert` finds the slot of the key. -/
lemma insertLoop_eq_slot (m : SimpleFlatMap Value n) (key : UInt64) :
    m.insertLoop key (hash key) n (hash key) = m.toTable.slot hash key := by
  rw [insertLoop_eq, probeLoop_start]
  rfl

/-- **`find` is the lookup of the table.** -/
lemma find_eq_get (m : SimpleFlatMap Value n) (key : UInt64) :
    m.find key = m.toTable.get hash key := by
  rw [find, findLoop_eq, insertLoop_eq_slot]
  rfl

/-- **`insert` enters the number converted back.** -/
lemma toTable_insert (m : SimpleFlatMap Value n) (key : Int32) (val : Value) :
    (m.insert key val).toTable = m.toTable.put hash (ofInt key) val := by
  simp only [insert, insertLoop_eq_slot, ProbeTable.put]
  cases m.toTable.slot hash (ofInt key) with
  | none => rfl
  | some index =>
    funext i
    by_cases hi : i = index
    · subst hi
      simp [toTable]
    · simp [toTable, hi]

lemma toTable_insertAll [Inhabited Value] (ps : List (UInt64 × Value)) :
    (insertAll (new : SimpleFlatMap Value n) ps).toTable =
      ProbeTable.putAll hash (converted ps) := by
  induction ps using List.reverseRecOn with
  | nil => exact toTable_new
  | append_singleton ps p ih =>
    rw [converted, List.map_append, List.map_singleton, ProbeTable.putAll_append_singleton,
      ← converted, ← ih, insertAll, List.foldl_append]
    exact toTable_insert _ _ _

/-! ## The map -/

/-- Every key finds the value of the last `insert` with it, and no value if there was none. -/
def MapsEveryKey (m : SimpleFlatMap Value n) (ps : List (UInt64 × Value)) : Prop :=
  ∀ k, m.find k = lastValue ps k

/-- **When `simple_flat_map` is a map**: with at most as many keys as entries, exactly if every
key passed is the sign extension of an `int`. -/
theorem mapsEveryKey_iff [Inhabited Value] (ps : List (UInt64 × Value))
    (hcard : (ps.map (·.1)).toFinset.card ≤ n) :
    (insertAll (new : SimpleFlatMap Value n) ps).MapsEveryKey ps ↔
      ∀ p ∈ ps, ofInt (toInt p.1) = p.1 := by
  have hfind : ∀ k, (insertAll (new : SimpleFlatMap Value n) ps).find k =
      lastValue (converted ps) k := by
    intro k
    rw [find_eq_get, toTable_insertAll]
    exact ProbeTable.get_putAll _ ((card_converted_le ps).trans hcard) k
  constructor
  · intro hmaps p hp
    by_contra hchanged
    have hnone := lastValue_converted_of_changed ps hchanged
    rw [← hfind, hmaps, lastValue_eq_none_iff] at hnone
    exact hnone (List.mem_map_of_mem hp)
  · intro hkept k
    have hsame : converted ps = ps :=
      calc converted ps = ps.map id := List.map_congr_left fun p hp => by rw [hkept p hp]; rfl
        _ = ps := List.map_id ps
    rw [hfind, hsame]

/-- Three keys with the same hash, one of which is inserted again. -/
theorem mapsEveryKey_iff_colliding :
    (insertAll (new : SimpleFlatMap ℕ 3) [(5, 7), (2, 8), (5, 9), (8, 1)]).MapsEveryKey
      [(5, 7), (2, 8), (5, 9), (8, 1)] :=
  (mapsEveryKey_iff [(5, 7), (2, 8), (5, 9), (8, 1)] (by decide)).mpr (by decide)

/-- A key of `2 ^ 32` is entered as `0` and not found again. -/
theorem not_mapsEveryKey_large :
    ¬ ∀ ps : List (UInt64 × ℕ), (ps.map (·.1)).toFinset.card ≤ 2 →
      (insertAll (new : SimpleFlatMap ℕ 2) ps).MapsEveryKey ps := by
  intro hall
  have hfind := hall [(4294967296, 7)] (by decide) 4294967296
  exact absurd hfind (by decide)

end SimpleFlatMap

end ClientServer.Mync
