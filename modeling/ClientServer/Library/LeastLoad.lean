import Mathlib.Data.Int.Order.Basic
import Mathlib.Logic.Function.Basic
import Mathlib.Order.Lattice

/-!
# Spreading by least load

A scan from left to right keeps the first index with the least load seen, as
`std::min_element` does.  Giving the next unit to an index of least load keeps the loads within
one of each other.
-/

namespace ClientServer

/-! ## The scan -/

section Scan

variable {n : ℕ} {α : Type*} [LinearOrder α] (load : Fin n → α)

/-- `best` is among the first `k` indices and has the least load of them. -/
structure LeastBelow (best : Fin n) (k : ℕ) : Prop where
  below : best.val < k
  least : ∀ j : Fin n, j.val < k → load best ≤ load j

variable {load}

lemma leastBelow_one (h : 0 < n) : LeastBelow load ⟨0, h⟩ 1 where
  below := Nat.one_pos
  least := by
    intro j hj
    have hzero : j = ⟨0, h⟩ := Fin.ext (Nat.lt_one_iff.mp hj)
    rw [hzero]

/-- One comparison of the scan. -/
lemma LeastBelow.compare {best : Fin n} {k : ℕ} (h : LeastBelow load best k) (hk : k < n) :
    LeastBelow load (if load ⟨k, hk⟩ < load best then ⟨k, hk⟩ else best) (k + 1) := by
  by_cases hlt : load ⟨k, hk⟩ < load best
  · rw [if_pos hlt]
    refine ⟨Nat.lt_succ_self k, fun j hj => ?_⟩
    by_cases hjk : j.val = k
    · rw [show j = ⟨k, hk⟩ from Fin.ext hjk]
    · exact le_trans (le_of_lt hlt) (h.least j (by omega))
  · rw [if_neg hlt]
    refine ⟨Nat.lt_succ_of_lt h.below, fun j hj => ?_⟩
    by_cases hjk : j.val = k
    · rw [show j = ⟨k, hk⟩ from Fin.ext hjk]
      exact not_lt.mp hlt
    · exact h.least j (by omega)

/-- The scan has seen every index. -/
lemma LeastBelow.least_all {best : Fin n} {k : ℕ} (h : LeastBelow load best k) (hk : ¬ k < n)
    (j : Fin n) : load best ≤ load j :=
  h.least j (Nat.lt_of_lt_of_le j.isLt (Nat.le_of_not_lt hk))

end Scan

/-! ## The spread -/

section Spread

variable {ι : Type*}

/-- Any two loads differ by one at most. -/
def WithinOne (load : ι → ℤ) : Prop := ∀ i j, load i ≤ load j + 1

lemma withinOne_const (c : ℤ) : WithinOne fun _ : ι => c := fun _ _ => by
  show c ≤ c + 1
  omega

/-- One more for an index of least load. -/
lemma WithinOne.add_least [DecidableEq ι] {load : ι → ℤ} (h : WithinOne load) {w : ι}
    (hleast : ∀ j, load w ≤ load j) : WithinOne (Function.update load w (load w + 1)) := by
  intro i j
  have hij := h i j
  have hwj := hleast j
  have hiw := h i w
  rw [Function.update_apply, Function.update_apply]
  split_ifs <;> omega

end Spread

end ClientServer
