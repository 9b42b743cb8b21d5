import Mathlib.Logic.Function.Basic
import Std.Data.ExtTreeMap

/-!
# Two indexes of the same values

A collection finds each of its values in two ways: under the key it was put in with, and under
a key that the value itself has.  `Mirrors` says that the second index finds exactly what is in
the first, under the key of the value, and that no two entries of the first have values with the
same key.  It is a relation between the two lookups, whatever they look into.

A value that is put in or taken out is put in or taken out of both.  For a map of the standard
library, inserting and erasing are `Function.update` of the lookup.
-/

namespace ClientServer

open Std (ExtTreeMap)

section Mirrors

variable {α β ν : Type*}

lemma update_none_eq_some [DecidableEq α] {f : α → Option ν} {a x : α} {w : ν} :
    Function.update f a none x = some w ↔ x ≠ a ∧ f x = some w := by
  by_cases hx : x = a
  · simp [hx]
  · simp [hx]

lemma update_some_eq_some [DecidableEq α] {f : α → Option ν} {a x : α} {v w : ν} :
    Function.update f a (some v) x = some w ↔ x = a ∧ v = w ∨ x ≠ a ∧ f x = some w := by
  by_cases hx : x = a
  · simp [hx]
  · simp [hx]

/-- The index `second` finds the values in `first` by their `key`. -/
structure Mirrors (first : α → Option ν) (second : β → Option ν) (key : ν → β) : Prop where
  found : ∀ b v, second b = some v ↔ ∃ a, first a = some v ∧ key v = b
  unique : ∀ a a' v v', first a = some v → first a' = some v' → key v = key v' → a = a'

namespace Mirrors

variable {first : α → Option ν} {second : β → Option ν} {key key' : ν → β} {a : α} {v : ν}

lemma empty (key : ν → β) : Mirrors (fun _ : α => none) (fun _ => none) key where
  found := by
    intro b v
    constructor
    · intro h
      cases h
    · rintro ⟨a, h, -⟩
      cases h
  unique := by
    intro a a' v v' h
    cases h

/-- A value of the first index is found under its key. -/
lemma second_key (h : Mirrors first second key) (hv : first a = some v) :
    second (key v) = some v := (h.found _ _).2 ⟨a, hv, rfl⟩

/-- And under no other. -/
lemma second_eq_some_iff (h : Mirrors first second key) (hv : first a = some v) (b : β) :
    second b = some v ↔ key v = b := by
  constructor
  · intro hb
    obtain ⟨-, -, hkey⟩ := (h.found b v).1 hb
    exact hkey
  · rintro rfl
    exact h.second_key hv

/-- Under a key that no value has there is nothing. -/
lemma second_eq_none (h : Mirrors first second key) {b : β}
    (hb : ∀ a v, first a = some v → key v ≠ b) : second b = none := by
  rw [Option.eq_none_iff_forall_not_mem]
  intro v hv
  obtain ⟨a, ha, hkey⟩ := (h.found b v).1 hv
  exact hb a v ha hkey

/-- The keys may change of values that are not there. -/
lemma congr_key (h : Mirrors first second key) (hkey : ∀ a v, first a = some v → key v = key' v) :
    Mirrors first second key' where
  found := by
    intro b v
    rw [h.found]
    apply exists_congr
    intro a
    apply and_congr_right
    intro hv
    rw [hkey a v hv]
  unique := by
    intro a a' v v' hv hv' heq
    apply h.unique a a' v v' hv hv'
    rw [hkey a v hv, hkey a' v' hv', heq]

variable [DecidableEq α] [DecidableEq β]

/-- A value is taken out of both indexes. -/
lemma remove (h : Mirrors first second key) (hv : first a = some v) :
    Mirrors (Function.update first a none) (Function.update second (key v) none) key where
  found := by
    intro b w
    rw [update_none_eq_some, h.found]
    constructor
    · rintro ⟨hb, a', ha', hkey⟩
      refine ⟨a', update_none_eq_some.2 ⟨?_, ha'⟩, hkey⟩
      rintro rfl
      rw [hv] at ha'
      cases ha'
      exact hb hkey.symm
    · rintro ⟨a', ha', hkey⟩
      obtain ⟨hne, hw⟩ := update_none_eq_some.1 ha'
      exact ⟨fun hb => hne (h.unique a' a w v hw hv (hkey.trans hb)), a', hw, hkey⟩
  unique := by
    intro a' a'' w w' hw hw'
    exact h.unique a' a'' w w' (update_none_eq_some.1 hw).2 (update_none_eq_some.1 hw').2

/-- A value with a new key is put in both indexes. -/
lemma add (h : Mirrors first second key) (ha : first a = none)
    (hfresh : ∀ a' v', first a' = some v' → key v' ≠ key v) :
    Mirrors (Function.update first a (some v)) (Function.update second (key v) (some v)) key where
  found := by
    intro b w
    rw [update_some_eq_some, h.found]
    constructor
    · rintro (⟨rfl, rfl⟩ | ⟨-, a', ha', hkey⟩)
      · exact ⟨a, Function.update_self .., rfl⟩
      · refine ⟨a', update_some_eq_some.2 (Or.inr ⟨?_, ha'⟩), hkey⟩
        rintro rfl
        rw [ha] at ha'
        cases ha'
    · rintro ⟨a', ha', hkey⟩
      obtain ⟨-, rfl⟩ | ⟨-, hw⟩ := update_some_eq_some.1 ha'
      · exact Or.inl ⟨hkey.symm, rfl⟩
      · exact Or.inr ⟨fun hb => hfresh a' w hw (hkey.trans hb), a', hw, hkey⟩
  unique := by
    intro a' a'' w w' hw hw' hkey
    obtain ⟨ha', rfl⟩ | ⟨-, hold⟩ := update_some_eq_some.1 hw
    · obtain ⟨ha'', -⟩ | ⟨-, hold'⟩ := update_some_eq_some.1 hw'
      · exact ha'.trans ha''.symm
      · exact absurd hkey.symm (hfresh a'' w' hold')
    · obtain ⟨-, rfl⟩ | ⟨-, hold'⟩ := update_some_eq_some.1 hw'
      · exact absurd hkey (hfresh a' w hold)
      · exact h.unique a' a'' w w' hold hold' hkey

end Mirrors

end Mirrors

section Maps

variable {α ν : Type*} [Ord α] [Std.TransOrd α]

lemma size_insert_of_none {m : ExtTreeMap α ν} {a : α} (h : m[a]? = none) (v : ν) :
    (m.insert a v).size = m.size + 1 := by
  rw [ExtTreeMap.size_insert, ExtTreeMap.contains_eq_isSome_getElem?, h]
  rfl

lemma size_insert_of_some {m : ExtTreeMap α ν} {a : α} {w : ν} (h : m[a]? = some w) (v : ν) :
    (m.insert a v).size = m.size := by
  rw [ExtTreeMap.size_insert, ExtTreeMap.contains_eq_isSome_getElem?, h]
  rfl

lemma size_erase_add_one {m : ExtTreeMap α ν} {a : α} {w : ν} (h : m[a]? = some w) :
    (m.erase a).size + 1 = m.size := by
  have hsize : m.size ≠ 0 := by
    intro hzero
    rw [ExtTreeMap.eq_empty_iff_size_eq_zero.2 hzero, ExtTreeMap.getElem?_empty] at h
    cases h
  rw [ExtTreeMap.size_erase, ExtTreeMap.contains_eq_isSome_getElem?, h]
  exact Nat.sub_one_add_one hsize

variable [Std.LawfulEqOrd α] [DecidableEq α]

lemma getElem?_insert_eq_update (m : ExtTreeMap α ν) (a : α) (v : ν) :
    (fun x => (m.insert a v)[x]?) = Function.update (fun x => m[x]?) a (some v) := by
  funext x
  rw [ExtTreeMap.getElem?_insert, Function.update_apply]
  exact if_congr (Std.compare_eq_iff_eq.trans eq_comm) rfl rfl

lemma getElem?_erase_eq_update (m : ExtTreeMap α ν) (a : α) :
    (fun x => (m.erase a)[x]?) = Function.update (fun x => m[x]?) a none := by
  funext x
  rw [ExtTreeMap.getElem?_erase, Function.update_apply]
  exact if_congr (Std.compare_eq_iff_eq.trans eq_comm) rfl rfl

end Maps

end ClientServer
