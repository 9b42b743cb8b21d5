import Mathlib.Algebra.BigOperators.Group.Finset.Piecewise
import Mathlib.Algebra.Order.BigOperators.Group.Finset
import Mathlib.Algebra.Order.Group.Multiset
import Mathlib.Data.Fintype.BigOperators
import Mathlib.Tactic.Abel

/-!
# Resources held by several holders

Each holder has a multiset of resources, and the world has the set of those that are in use.
`Exclusive` says that nothing is held twice, by one holder or by two, and that what is held is
in use.  The lemmas are the ways in which holdings change: a holder gives some up and they go
out of use, takes one that was not in use, or hands one to another holder.

The rules ask for inequalities of multisets, so that a holder may also forget something.
-/

namespace ClientServer

/-- Changing one summand of a sum over all indices. -/
lemma sum_update_add {ι M : Type*} [Fintype ι] [DecidableEq ι] [AddCommMonoid M] (f : ι → M)
    (i : ι) (m : M) : ∑ j, Function.update f i m j + f i = ∑ j, f j + m := by
  rw [Finset.sum_update_of_mem (Finset.mem_univ i), ← Finset.add_sum_erase _ f (Finset.mem_univ i),
    Finset.sdiff_singleton_eq_erase]
  abel

/-- Nothing is held twice and what is held is in use. -/
structure Exclusive {ι κ : Type*} [Fintype ι] (held : ι → Multiset κ) (used : Finset κ) :
    Prop where
  nodup : (∑ i, held i).Nodup
  used : ∀ x ∈ ∑ i, held i, x ∈ used

namespace Exclusive

variable {ι κ : Type*} [Fintype ι] {held : ι → Multiset κ} {used : Finset κ}

lemma mem_used (h : Exclusive held used) {i : ι} {x : κ} (hx : x ∈ held i) : x ∈ used :=
  h.used x (Multiset.mem_sum.mpr ⟨i, Finset.mem_univ i, hx⟩)

lemma nodup_held (h : Exclusive held used) (i : ι) : (held i).Nodup :=
  Multiset.nodup_of_le
    (Finset.single_le_sum (fun _ _ => Multiset.zero_le _) (Finset.mem_univ i)) h.nodup

variable [DecidableEq ι]

/-- Two holders have nothing in common. -/
lemma not_mem_of_ne (h : Exclusive held used) {i j : ι} (hij : j ≠ i) {x : κ} (hx : x ∈ held i) :
    x ∉ held j := by
  intro hx'
  have hsplit : held i + held j ≤ ∑ k, held k := by
    rw [← Finset.add_sum_erase _ held (Finset.mem_univ i)]
    exact add_le_add_right (Finset.single_le_sum (fun _ _ => Multiset.zero_le _)
      (Finset.mem_erase.mpr ⟨hij, Finset.mem_univ j⟩)) _
  have hnodup := Multiset.nodup_of_le hsplit h.nodup
  exact Multiset.disjoint_left.mp (Multiset.nodup_add.mp hnodup).2.2 hx hx'

/-- A holder hands a resource to a holder, which may be itself. -/
lemma transfer (h : Exclusive held used) {i j : ι} {m : Multiset κ} {x : κ}
    (hle : x ::ₘ m ≤ held i) :
    Exclusive (Function.update (Function.update held i m) j
      (x ::ₘ Function.update held i m j)) used := by
  set mid := Function.update held i m with hmid
  have hsum := sum_update_add held i m
  have hsum' := sum_update_add mid j (x ::ₘ mid j)
  have htotal : ∑ k, Function.update mid j (x ::ₘ mid j) k ≤ ∑ k, held k := by
    have hmove : ∑ k, Function.update mid j (x ::ₘ mid j) k = x ::ₘ ∑ k, mid k := by
      rw [Multiset.add_cons, ← Multiset.cons_add] at hsum'
      exact add_right_cancel hsum'
    have hadd : (x ::ₘ ∑ k, mid k) + held i ≤ ∑ k, held k + held i := by
      calc (x ::ₘ ∑ k, mid k) + held i
          = x ::ₘ (∑ k, mid k + held i) := Multiset.cons_add _ _ _
        _ = ∑ k, held k + x ::ₘ m := by rw [hsum, Multiset.add_cons]
        _ ≤ ∑ k, held k + held i := add_le_add_right hle _
    rw [hmove]
    exact le_of_add_le_add_right hadd
  exact ⟨Multiset.nodup_of_le htotal h.nodup,
    fun y hy => h.used y (Multiset.mem_of_le htotal hy)⟩

variable [DecidableEq κ]

/-- A holder gives up what is in `out`, which goes out of use. -/
lemma release (h : Exclusive held used) {i : ι} {m : Multiset κ} {out : List κ}
    (hle : m + ↑out ≤ held i) :
    Exclusive (Function.update held i m) (used \ out.toFinset) := by
  have htotal : ∑ j, Function.update held i m j + ↑out ≤ ∑ j, held j := by
    have hsum := sum_update_add held i m
    have hadd : (∑ j, Function.update held i m j + ↑out) + held i ≤ ∑ j, held j + held i := by
      calc (∑ j, Function.update held i m j + ↑out) + held i
          = (∑ j, Function.update held i m j + held i) + ↑out := add_right_comm _ _ _
        _ = ∑ j, held j + (m + ↑out) := by rw [hsum, add_assoc]
        _ ≤ ∑ j, held j + held i := add_le_add_right hle _
    exact le_of_add_le_add_right hadd
  have hnodup := Multiset.nodup_of_le htotal h.nodup
  rw [Multiset.nodup_add] at hnodup
  refine ⟨hnodup.1, fun x hx => ?_⟩
  rw [Finset.mem_sdiff, List.mem_toFinset]
  refine ⟨h.used x (Multiset.mem_of_le htotal (Multiset.mem_add.mpr (Or.inl hx))), fun hout => ?_⟩
  exact Multiset.disjoint_left.mp hnodup.2.2 hx hout

/-- A holder forgets a part of what it held, which stays in use. -/
lemma forget (h : Exclusive held used) {i : ι} {m : Multiset κ} (hle : m ≤ held i) :
    Exclusive (Function.update held i m) used := by
  have hrelease := h.release (i := i) (m := m) (show m + (([] : List κ) : Multiset κ) ≤ held i by
    rw [Multiset.coe_nil, add_zero]
    exact hle)
  rwa [List.toFinset_nil, Finset.sdiff_empty] at hrelease

/-- A holder takes a resource that was not in use. -/
lemma acquire (h : Exclusive held used) {i : ι} {m : Multiset κ} {x : κ} (hx : x ∉ used)
    (hle : m ≤ x ::ₘ held i) : Exclusive (Function.update held i m) (insert x used) := by
  have htotal : ∑ j, Function.update held i m j ≤ x ::ₘ ∑ j, held j := by
    have hsum := sum_update_add held i m
    have hadd : ∑ j, Function.update held i m j + held i ≤ (x ::ₘ ∑ j, held j) + held i := by
      calc ∑ j, Function.update held i m j + held i
          = ∑ j, held j + m := hsum
        _ ≤ ∑ j, held j + x ::ₘ held i := add_le_add_right hle _
        _ = (x ::ₘ ∑ j, held j) + held i := by rw [Multiset.add_cons, Multiset.cons_add]
    exact le_of_add_le_add_right hadd
  refine ⟨Multiset.nodup_of_le htotal ?_, fun y hy => ?_⟩
  · exact Multiset.nodup_cons.mpr ⟨fun hmem => hx (h.used x hmem), h.nodup⟩
  · rcases Multiset.mem_cons.mp (Multiset.mem_of_le htotal hy) with rfl | hy
    · exact Finset.mem_insert_self y used
    · exact Finset.mem_insert_of_mem (h.used y hy)

end Exclusive

end ClientServer
