import Mathlib.Data.Finmap
import Mathlib.Data.Fintype.Card
import Mathlib.Data.List.Rotate

/-!
# Hash tables with linear probing

A table of `n` slots.  A key is looked for from the slot its hash names, on to the next slot and
round to the first one, up to the first slot that is empty or has the key; it is entered there.
Nothing is ever removed.

`WellPlaced` is the invariant: every entry is found by the probe for its key.  So no key has two
slots, and entering one key does not hide another: what stops the probe for a key are empty slots
and the key itself, and an entry of another key in between does not.  With as many slots as there
are keys the probe always finds a slot, and the table gives for every key the value entered last
(`get_putAll`).  Whatever the number of keys, the table is a finite map that takes no new key once
it has as many keys as slots (`Represents.put`).

A program probes in a loop that goes on until it is back at the start; `probeLoop_start` is where
such a loop ends.  Keys, values and the hash function are arbitrary.
-/

namespace ClientServer

/-- The slots of a table: empty, or a key and its value. -/
abbrev ProbeTable (n : ℕ) (κ ν : Type*) := Fin n → Option (κ × ν)

/-- The slots in the order in which a probe from `start` visits them. -/
def probeOrder {n : ℕ} (start : Fin n) : List (Fin n) := (List.finRange n).rotate start.val

lemma mem_probeOrder {n : ℕ} (start i : Fin n) : i ∈ probeOrder start :=
  List.mem_rotate.mpr (List.mem_finRange i)

/-! ## Probing in a loop -/

section Loop

variable {n : ℕ} {start i : Fin n} {d : ℕ}

lemma succ_mod_lt (i : Fin n) : (i.val + 1) % n < n := Nat.mod_lt _ i.pos

/-- The slot behind `i`, and behind the last one the first. -/
def nextSlot (i : Fin n) : Fin n := ⟨(i.val + 1) % n, succ_mod_lt i⟩

/-- The loop from slot `i`: it ends at a slot that stops it, or without one when it comes back to
`start`.  The number bounds its turns; none where they are used up. -/
def probeLoop (stops : Fin n → Bool) (start : Fin n) : ℕ → Fin n → Option (Option (Fin n))
  | 0, _ => none
  | turns + 1, i =>
    if stops i then some (some i)
    else if nextSlot i = start then some none
    else probeLoop stops start turns (nextSlot i)

/-- What a probe still has to visit after `d` turns. -/
lemma drop_probeOrder (hd : d < n) (hi : i.val = (start.val + d) % n) :
    (probeOrder start).drop d = i :: (probeOrder start).drop (d + 1) := by
  have hlen : d < (probeOrder start).length := by
    rw [probeOrder, List.length_rotate, List.length_finRange]
    exact hd
  rw [List.drop_eq_getElem_cons hlen]
  congr 1
  simp only [probeOrder, List.getElem_rotate, List.getElem_finRange, List.length_finRange]
  apply Fin.ext
  simp [hi, Nat.add_comm]

/-- The loop comes back to the start after `n` turns and not before. -/
lemma nextSlot_eq_start_iff (hd : d < n) (hi : i.val = (start.val + d) % n) :
    nextSlot i = start ↔ d + 1 = n := by
  have hstart := start.isLt
  rw [Fin.ext_iff]
  simp only [nextSlot, hi, Nat.mod_add_mod]
  by_cases hround : start.val + d + 1 < n
  · rw [Nat.mod_eq_of_lt hround]
    omega
  · rw [Nat.mod_eq_sub_mod (by omega), Nat.mod_eq_of_lt (by omega)]
    omega

/-- After `d` turns the loop goes on with the rest of the probe; `n` turns are enough. -/
lemma probeLoop_eq (stops : Fin n → Bool) (turns : ℕ) (hd : d < n) (hturns : n ≤ d + turns)
    (hi : i.val = (start.val + d) % n) :
    probeLoop stops start turns i = some (((probeOrder start).drop d).find? stops) := by
  induction turns generalizing d i with
  | zero => omega
  | succ turns ih =>
    rw [probeLoop, drop_probeOrder hd hi, List.find?_cons]
    cases stops i with
    | true => rfl
    | false =>
      rw [if_neg Bool.false_ne_true]
      by_cases hlast : d + 1 = n
      · rw [if_pos ((nextSlot_eq_start_iff hd hi).mpr hlast), hlast, List.drop_eq_nil_of_le]
        · rfl
        · rw [probeOrder, List.length_rotate, List.length_finRange]
      · have hnext : (nextSlot i).val = (start.val + (d + 1)) % n := by
          simp only [nextSlot, hi, Nat.mod_add_mod]
          rfl
        rw [if_neg (mt (nextSlot_eq_start_iff hd hi).mp hlast)]
        exact ih (by omega) (by omega) hnext

/-- **Where the loop ends**, in at most `n` turns. -/
lemma probeLoop_start (stops : Fin n → Bool) (start : Fin n) :
    probeLoop stops start n start = some ((probeOrder start).find? stops) := by
  have hstart : start.val = (start.val + 0) % n := by
    rw [Nat.add_zero, Nat.mod_eq_of_lt start.isLt]
  rw [probeLoop_eq stops n start.pos (by omega) hstart, List.drop_zero]

end Loop

/-- The value that the last of these assignments gives to `k`. -/
def lastValue {κ ν : Type*} [DecidableEq κ] (ps : List (κ × ν)) (k : κ) : Option ν :=
  (ps.reverse.find? fun p => p.1 = k).map (·.2)

section LastValue

variable {κ ν : Type*} [DecidableEq κ]

lemma lastValue_append_singleton (ps : List (κ × ν)) (p : κ × ν) (k : κ) :
    lastValue (ps ++ [p]) k = if p.1 = k then some p.2 else lastValue ps k := by
  rw [lastValue, List.reverse_append, List.reverse_singleton, List.singleton_append,
    List.find?_cons]
  by_cases h : p.1 = k
  · simp [h]
  · simp [h, lastValue]

lemma lastValue_eq_none_iff (ps : List (κ × ν)) (k : κ) :
    lastValue ps k = none ↔ k ∉ ps.map (·.1) := by
  rw [lastValue, Option.map_eq_none_iff, List.find?_eq_none]
  simp only [List.mem_reverse, decide_eq_true_eq, List.mem_map]
  exact ⟨fun h ⟨p, hp, hk⟩ => h p hp hk, fun h p hp hk => h ⟨p, hp, hk⟩⟩

end LastValue

namespace ProbeTable

variable {n : ℕ} {κ ν : Type*} [DecidableEq κ] (hash : κ → Fin n)

/-- All slots are empty. -/
def empty : ProbeTable n κ ν := fun _ => none

/-- A probe for `k` ends at slot `i`. -/
def stops (t : ProbeTable n κ ν) (k : κ) (i : Fin n) : Bool :=
  match t i with
  | none => true
  | some (k', _) => k' = k

/-- The slot at which a probe for `k` ends; none if all slots have other keys. -/
def slot (t : ProbeTable n κ ν) (k : κ) : Option (Fin n) :=
  (probeOrder (hash k)).find? (t.stops k)

/-- The value of `k`. -/
def get (t : ProbeTable n κ ν) (k : κ) : Option ν :=
  (t.slot hash k).bind fun i => (t i).map (·.2)

/-- Enter `v` for `k`; nothing happens if there is no slot. -/
def put (t : ProbeTable n κ ν) (k : κ) (v : ν) : ProbeTable n κ ν :=
  match t.slot hash k with
  | some i => Function.update t i (some (k, v))
  | none => t

/-- Enter one after the other. -/
def putAll (ps : List (κ × ν)) : ProbeTable n κ ν :=
  ps.foldl (fun t p => t.put hash p.1 p.2) empty

/-- Every entry is where the probe for its key ends. -/
def WellPlaced (t : ProbeTable n κ ν) : Prop :=
  ∀ i k v, t i = some (k, v) → t.slot hash k = some i

variable {hash} {t : ProbeTable n κ ν} {k k' : κ} {v : ν} {i : Fin n}

lemma stops_of_eq_some (h : t i = some (k', v)) : t.stops k i = decide (k' = k) := by
  rw [stops, h]

lemma slot_eq_some_iff :
    t.slot hash k = some i ↔ t.stops k i = true ∧
      ∃ before after, probeOrder (hash k) = before ++ i :: after ∧
        ∀ j ∈ before, t.stops k j = false := by
  rw [slot, List.find?_eq_some_iff_append]
  simp

lemma slot_eq_none_iff : t.slot hash k = none ↔ ∀ i, t.stops k i = false := by
  rw [slot, List.find?_eq_none]
  simp only [Bool.not_eq_true]
  exact ⟨fun h i => h i (mem_probeOrder _ i), fun h i _ => h i⟩

/-- The slot found is empty or has the key. -/
lemma stops_of_slot (h : t.slot hash k = some i) : t.stops k i = true :=
  (slot_eq_some_iff.mp h).1

/-! ## Entering a key -/

lemma wellPlaced_empty : (empty : ProbeTable n κ ν).WellPlaced hash := by
  intro i k v h
  cases h

lemma put_of_slot (h : t.slot hash k = some i) :
    t.put hash k v = Function.update t i (some (k, v)) := by
  rw [put, h]

/-- A probe for another key ends where it did: the entry in the way has another key still. -/
lemma slot_update (hkey : k' ≠ k) {j : Fin n} (hj : j ≠ i)
    (h : t.slot hash k' = some j) :
    slot hash (Function.update t i (some (k, v))) k' = some j := by
  obtain ⟨hstops, before, after, horder, hbefore⟩ := slot_eq_some_iff.mp h
  refine slot_eq_some_iff.mpr ⟨?_, before, after, horder, fun x hx => ?_⟩
  · rwa [stops, Function.update_of_ne hj]
  · by_cases hxi : x = i
    · rw [stops, hxi, Function.update_self]
      simp [Ne.symm hkey]
    · rw [stops, Function.update_of_ne hxi]
      exact hbefore x hx

/-- The probe for the key entered ends at its new entry. -/
lemma slot_update_self (hi : t.slot hash k = some i) :
    slot hash (Function.update t i (some (k, v))) k = some i := by
  obtain ⟨hstops, before, after, horder, hbefore⟩ := slot_eq_some_iff.mp hi
  refine slot_eq_some_iff.mpr ⟨?_, before, after, horder, fun x hx => ?_⟩
  · rw [stops, Function.update_self]
    simp
  · have hxi : x ≠ i := by
      rintro rfl
      rw [hbefore x hx] at hstops
      cases hstops
    rw [stops, Function.update_of_ne hxi]
    exact hbefore x hx

lemma WellPlaced.put (h : t.WellPlaced hash) (k : κ) (v : ν) :
    (t.put hash k v).WellPlaced hash := by
  cases hslot : t.slot hash k with
  | none =>
    rw [ProbeTable.put, hslot]
    exact h
  | some i =>
    rw [put_of_slot hslot]
    intro j k' v' hj
    by_cases hji : j = i
    · subst hji
      rw [Function.update_self] at hj
      cases hj
      exact slot_update_self hslot
    · rw [Function.update_of_ne hji] at hj
      have hfound := h j k' v' hj
      refine slot_update ?_ hji hfound
      rintro rfl
      rw [hfound] at hslot
      exact hji (Option.some.inj hslot)

lemma put_eq_some {i : Fin n} {w : ν} (h : t.put hash k v i = some (k', w)) :
    k' = k ∨ t i = some (k', w) := by
  cases hslot : t.slot hash k with
  | none =>
    rw [put, hslot] at h
    exact .inr h
  | some j =>
    rw [put_of_slot hslot] at h
    by_cases hij : i = j
    · subst hij
      rw [Function.update_self] at h
      cases h
      exact .inl rfl
    · rw [Function.update_of_ne hij] at h
      exact .inr h

/-! ## Looking a key up -/

lemma get_empty : (empty : ProbeTable n κ ν).get hash k = none := by
  rw [get]
  cases (empty : ProbeTable n κ ν).slot hash k <;> rfl

lemma WellPlaced.get_eq_some_iff (h : t.WellPlaced hash) :
    t.get hash k = some v ↔ ∃ i, t i = some (k, v) := by
  rw [get, Option.bind_eq_some_iff]
  constructor
  · rintro ⟨i, hslot, hvalue⟩
    obtain ⟨⟨k', v'⟩, hentry, rfl⟩ := Option.map_eq_some_iff.mp hvalue
    have hstops := stops_of_slot hslot
    rw [stops_of_eq_some hentry, decide_eq_true_iff] at hstops
    exact ⟨i, hstops ▸ hentry⟩
  · rintro ⟨i, hentry⟩
    exact ⟨i, h i k v hentry, by rw [hentry]; rfl⟩

/-- **Entering a key changes its value and no other.** -/
lemma WellPlaced.get_put (h : t.WellPlaced hash) (hslot : t.slot hash k ≠ none) (k' : κ) :
    (t.put hash k v).get hash k' = if k = k' then some v else t.get hash k' := by
  obtain ⟨i, hi⟩ := Option.ne_none_iff_exists'.mp hslot
  have hput := h.put k v
  rw [put_of_slot hi] at hput ⊢
  split_ifs with hkey
  · subst hkey
    exact hput.get_eq_some_iff.mpr ⟨i, Function.update_self ..⟩
  · refine Option.ext fun w => ?_
    rw [hput.get_eq_some_iff, h.get_eq_some_iff]
    refine exists_congr fun j => ?_
    by_cases hj : j = i
    · -- the slot had no entry of another key
      subst hj
      rw [Function.update_self]
      refine iff_of_false (by simp [hkey]) fun hentry => ?_
      have hstops := stops_of_slot hi
      rw [stops_of_eq_some hentry, decide_eq_true_iff] at hstops
      exact hkey hstops.symm
    · rw [Function.update_of_ne hj]

/-- With as many slots as there are keys a probe finds a slot. -/
lemma WellPlaced.slot_ne_none (h : t.WellPlaced hash) {keys : Finset κ}
    (hkeys : ∀ i k v, t i = some (k, v) → k ∈ keys) (hk : k ∈ keys) (hcard : keys.card ≤ n) :
    t.slot hash k ≠ none := by
  intro hnone
  have hentry : ∀ i, ∃ k' v, t i = some (k', v) ∧ k' ≠ k := by
    intro i
    have hstops := slot_eq_none_iff.mp hnone i
    cases hi : t i with
    | none =>
      rw [stops, hi] at hstops
      cases hstops
    | some p =>
      rw [stops_of_eq_some hi, decide_eq_false_iff_not] at hstops
      exact ⟨p.1, p.2, rfl, hstops⟩
  choose key value hfull hother using hentry
  -- so all slots have different keys, and none of them is `k`
  have hinj : Function.Injective key := by
    intro i j hij
    have hi := h i _ _ (hfull i)
    have hj := h j _ _ (hfull j)
    rw [hij, hj] at hi
    exact (Option.some.inj hi).symm
  have hle : (Finset.univ : Finset (Fin n)).card ≤ (keys.erase k).card :=
    Finset.card_le_card_of_injOn key
      (fun i _ => Finset.mem_erase.mpr ⟨hother i, hkeys i _ _ (hfull i)⟩) hinj.injOn
  rw [Finset.card_univ, Fintype.card_fin, Finset.card_erase_of_mem hk] at hle
  have := Finset.card_pos.mpr ⟨k, hk⟩
  omega

/-! ## Any number of keys -/

lemma putAll_append_singleton (ps : List (κ × ν)) (p : κ × ν) :
    putAll hash (ps ++ [p]) = (putAll hash ps).put hash p.1 p.2 := by
  rw [putAll, List.foldl_append]
  rfl

lemma wellPlaced_putAll (ps : List (κ × ν)) : (putAll hash ps).WellPlaced hash := by
  induction ps using List.reverseRecOn with
  | nil => exact wellPlaced_empty
  | append_singleton ps p ih =>
    rw [putAll_append_singleton]
    exact ih.put p.1 p.2

/-- Only keys that were entered have a slot. -/
lemma mem_of_putAll_eq_some {ps : List (κ × ν)} (h : putAll hash ps i = some (k, v)) :
    k ∈ ps.map (·.1) := by
  induction ps using List.reverseRecOn with
  | nil => cases h
  | append_singleton ps p ih =>
    rw [putAll_append_singleton] at h
    rw [List.map_append, List.mem_append]
    rcases put_eq_some h with rfl | hold
    · exact .inr (List.mem_singleton_self p.1)
    · exact .inl (ih hold)

/-- **The table is a map**, as long as it has as many slots as keys are entered. -/
theorem get_putAll (ps : List (κ × ν)) (hcard : (ps.map (·.1)).toFinset.card ≤ n) (k : κ) :
    (putAll hash ps).get hash k = lastValue ps k := by
  induction ps using List.reverseRecOn with
  | nil => exact get_empty
  | append_singleton ps p ih =>
    have hsub : (ps.map (·.1)).toFinset ⊆ ((ps ++ [p]).map (·.1)).toFinset := by
      intro x hx
      rw [List.mem_toFinset] at hx ⊢
      rw [List.map_append]
      exact List.mem_append_left _ hx
    have hslot : (putAll hash ps).slot hash p.1 ≠ none := by
      refine (wellPlaced_putAll ps).slot_ne_none (fun i k v hentry => ?_) ?_ hcard
      · exact hsub (List.mem_toFinset.mpr (mem_of_putAll_eq_some hentry))
      · rw [List.mem_toFinset, List.map_append]
        exact List.mem_append_right _ (List.mem_singleton_self p.1)
    rw [putAll_append_singleton, (wellPlaced_putAll ps).get_put hslot,
      lastValue_append_singleton, ih ((Finset.card_le_card hsub).trans hcard)]

/-! ## The table as a finite map -/

/-- A finite map that takes no new key once it has `n`. -/
def insertBounded (n : ℕ) (m : Finmap fun _ : κ => ν) (k : κ) (v : ν) : Finmap fun _ : κ => ν :=
  if k ∈ m ∨ m.keys.card < n then m.insert k v else m

/-- The table has the keys and values of the map. -/
structure Represents (hash : κ → Fin n) (t : ProbeTable n κ ν) (m : Finmap fun _ : κ => ν) :
    Prop where
  wellPlaced : t.WellPlaced hash
  get_eq : ∀ k, t.get hash k = m.lookup k

namespace Represents

variable {m : Finmap fun _ : κ => ν}

lemma empty : Represents hash (empty : ProbeTable n κ ν) ∅ :=
  ⟨wellPlaced_empty, fun _ => get_empty⟩

/-- The keys of the map are those that have a slot. -/
lemma mem_keys_iff (h : Represents hash t m) : k ∈ m.keys ↔ ∃ i v, t i = some (k, v) := by
  rw [Finmap.mem_keys, Finmap.mem_iff]
  constructor
  · rintro ⟨v, hv⟩
    rw [← h.get_eq, h.wellPlaced.get_eq_some_iff] at hv
    obtain ⟨i, hi⟩ := hv
    exact ⟨i, v, hi⟩
  · rintro ⟨i, v, hi⟩
    exact ⟨v, by rw [← h.get_eq, h.wellPlaced.get_eq_some_iff]; exact ⟨i, hi⟩⟩

/-- Different keys have different slots. -/
lemma card_keys_le (h : Represents hash t m) (slots : Finset (Fin n))
    (hslots : ∀ i k v, t i = some (k, v) → i ∈ slots) : m.keys.card ≤ slots.card := by
  have hslot : ∀ k : m.keys, ∃ i v, t i = some (k.1, v) := fun k => h.mem_keys_iff.mp k.2
  choose slot value hentry using hslot
  have hinj : Function.Injective slot := by
    intro k k' hkk'
    have hk := hentry k
    rw [hkk', hentry k'] at hk
    exact Subtype.ext (congrArg Prod.fst (Option.some.inj hk)).symm
  have hle := Finset.card_le_card_of_injOn (s := Finset.univ) (t := slots) slot
    (fun k _ => hslots _ _ _ (hentry k)) hinj.injOn
  rwa [Finset.card_univ, Fintype.card_coe] at hle

/-- A probe finds a slot exactly for the keys that the map takes. -/
lemma slot_ne_none_iff (h : Represents hash t m) :
    t.slot hash k ≠ none ↔ k ∈ m ∨ m.keys.card < n := by
  constructor
  · intro hslot
    obtain ⟨i, hi⟩ := Option.ne_none_iff_exists'.mp hslot
    cases hentry : t i with
    | none =>
      -- all keys are in the other slots
      refine .inr (lt_of_le_of_lt (h.card_keys_le (Finset.univ.erase i) ?_) ?_)
      · intro j k' v hj
        refine Finset.mem_erase.mpr ⟨?_, Finset.mem_univ j⟩
        rintro rfl
        rw [hentry] at hj
        cases hj
      · rw [Finset.card_erase_of_mem (Finset.mem_univ i), Finset.card_univ, Fintype.card_fin]
        have := i.pos
        omega
    | some p =>
      have hstops := stops_of_slot hi
      rw [stops_of_eq_some hentry, decide_eq_true_iff] at hstops
      exact .inl (Finmap.mem_keys.mp (h.mem_keys_iff.mpr ⟨i, p.2, hstops ▸ hentry⟩))
  · intro hroom
    refine h.wellPlaced.slot_ne_none (fun i k' v hi => ?_) (Finset.mem_insert_self k m.keys) ?_
    · exact Finset.mem_insert_of_mem (h.mem_keys_iff.mpr ⟨i, v, hi⟩)
    · rcases hroom with hmem | hlt
      · rw [Finset.insert_eq_of_mem (Finmap.mem_keys.mpr hmem)]
        refine (h.card_keys_le Finset.univ fun i _ _ _ => Finset.mem_univ i).trans ?_
        rw [Finset.card_univ, Fintype.card_fin]
      · exact (Finset.card_insert_le k m.keys).trans hlt

/-- **Entering a key does to the map what it does to the table.** -/
lemma put (h : Represents hash t m) (k : κ) (v : ν) :
    Represents hash (t.put hash k v) (insertBounded n m k v) := by
  refine ⟨h.wellPlaced.put k v, fun k' => ?_⟩
  by_cases hslot : t.slot hash k = none
  · have hfull : ¬ (k ∈ m ∨ m.keys.card < n) := mt h.slot_ne_none_iff.mpr (not_not.mpr hslot)
    rw [insertBounded, if_neg hfull, ProbeTable.put, hslot, h.get_eq]
  · rw [insertBounded, if_pos (h.slot_ne_none_iff.mp hslot), h.wellPlaced.get_put hslot]
    split_ifs with hkey
    · rw [← hkey, Finmap.lookup_insert]
    · rw [Finmap.lookup_insert_of_ne m (Ne.symm hkey), h.get_eq]

end Represents

end ProbeTable

end ClientServer
