import Mathlib.Data.List.Sort

/-!
# Lists of records with a key

Records are pairs of a key and a value, and a key may have several.  `matching` are the records
with a key in the order of the list, and `firstOf` is the index of the first.  Two lists are
permutations of each other if they have the same records with every key
(`perm_of_matching`); a key all of whose records are equal has them in the same order in both
(`Single.matching_eq`).

`IsSort` is what a sort promises that goes by the key alone: a permutation, in the order of the
keys.  Among the records with one key it may put any first (`head?_matching_preferring`).  In a
list in that order a binary search finds the first record with a key (`firstOf_eq_lowerBound`), and
the index says how many keys are smaller (`firstOf_eq_below`).
-/

namespace ClientServer

section Records

variable {κ ν : Type*} [DecidableEq κ]

/-- The records with key `k`. -/
def matching (l : List (κ × ν)) (k : κ) : List (κ × ν) := l.filter fun p => p.1 = k

/-- The index of the first of them. -/
def firstOf (l : List (κ × ν)) (k : κ) : Option ℕ := l.findIdx? fun p => p.1 = k

/-- The value at an index is changed. -/
def modifyValue (l : List (κ × ν)) (i : ℕ) (f : ν → ν) : List (κ × ν) := l.modify i (Prod.map id f)

/-- The records with key `k` are all equal. -/
def Single (l : List (κ × ν)) (k : κ) : Prop := ∀ p ∈ matching l k, ∀ q ∈ matching l k, p = q

instance [DecidableEq ν] (l : List (κ × ν)) (k : κ) : Decidable (Single l k) :=
  inferInstanceAs (Decidable (∀ p ∈ matching l k, ∀ q ∈ matching l k, p = q))

variable {l l' : List (κ × ν)} {k k' : κ} {i : ℕ}

lemma mem_matching {p : κ × ν} : p ∈ matching l k ↔ p ∈ l ∧ p.1 = k := by
  rw [matching, List.mem_filter, decide_eq_true_iff]

lemma matching_cons (p : κ × ν) (l : List (κ × ν)) (k : κ) :
    matching (p :: l) k = if p.1 = k then p :: matching l k else matching l k := by
  simp only [matching, List.filter_cons, decide_eq_true_eq]

lemma firstOf_cons (p : κ × ν) (l : List (κ × ν)) (k : κ) :
    firstOf (p :: l) k = if p.1 = k then some 0 else (firstOf l k).map (· + 1) := by
  simp only [firstOf, List.findIdx?_cons, decide_eq_true_eq]

/-- The record at the first index is the first record. -/
lemma bind_firstOf (l : List (κ × ν)) (k : κ) :
    ((firstOf l k).bind fun i => l[i]?) = (matching l k).head? := by
  induction l with
  | nil => rfl
  | cons p l ih =>
    rw [firstOf_cons, matching_cons]
    split_ifs
    · rfl
    · rw [← ih]
      cases firstOf l k <;> rfl

lemma firstOf_eq_none_iff : firstOf l k = none ↔ matching l k = [] := by
  rw [firstOf, matching, List.findIdx?_eq_none_iff, List.filter_eq_nil_iff]
  simp

lemma matching_append (l l' : List (κ × ν)) (k : κ) :
    matching (l ++ l') k = matching l k ++ matching l' k := List.filter_append l l'

/-- What comes behind the first record does not matter. -/
lemma firstOf_append (h : firstOf l k = some i) (l' : List (κ × ν)) :
    firstOf (l ++ l') k = some i := by
  rw [firstOf] at h
  rw [firstOf, List.findIdx?_append, h]
  rfl

/-! ## Changing a value -/

omit [DecidableEq κ] in
lemma map_fst_modifyValue (l : List (κ × ν)) (i : ℕ) (f : ν → ν) :
    (modifyValue l i f).map (·.1) = l.map (·.1) := by
  induction l generalizing i with
  | nil => simp [modifyValue]
  | cons p l ih =>
    cases i with
    | zero => rfl
    | succ i =>
      have htail := ih i
      rw [modifyValue] at htail
      simp only [modifyValue, List.modify_succ_cons, List.map_cons, htail]

/-- The keys stay where they are. -/
lemma firstOf_modifyValue (l : List (κ × ν)) (i : ℕ) (f : ν → ν) (k : κ) :
    firstOf (modifyValue l i f) k = firstOf l k := by
  have hkeys : ∀ l : List (κ × ν), firstOf l k = (l.map (·.1)).findIdx? fun x => x = k := by
    intro l
    rw [firstOf, List.findIdx?_map]
    rfl
  rw [hkeys, hkeys, map_fst_modifyValue]

/-- Only the first of the records with the key is changed. -/
lemma matching_modifyValue (f : ν → ν) (h : firstOf l k = some i) (k' : κ) :
    matching (modifyValue l i f) k' =
      if k' = k then (matching l k').modifyHead (Prod.map id f) else matching l k' := by
  induction l generalizing i with
  | nil => cases h
  | cons p l ih =>
    rw [firstOf_cons] at h
    by_cases hp : p.1 = k
    · rw [if_pos hp] at h
      cases h
      rw [modifyValue, List.modify_zero_cons, matching_cons, matching_cons, Prod.map_fst, id_eq]
      by_cases hk' : k' = k
      · rw [if_pos hk', if_pos (hp.trans hk'.symm), if_pos (hp.trans hk'.symm),
          List.modifyHead_cons]
      · have hpk' : p.1 ≠ k' := fun heq => hk' (heq.symm.trans hp)
        rw [if_neg hk', if_neg hpk', if_neg hpk']
    · rw [if_neg hp] at h
      obtain ⟨j, hj, rfl⟩ := Option.map_eq_some_iff.mp h
      have htail := ih hj
      rw [modifyValue] at htail
      rw [modifyValue, List.modify_succ_cons, matching_cons, matching_cons, htail]
      by_cases hk' : k' = k
      · have hpk' : p.1 ≠ k' := fun heq => hp (heq.trans hk')
        rw [if_neg hpk', if_neg hpk']
      · rw [if_neg hk', if_neg hk']

/-! ## Permutations -/

/-- Lists with the same records for every key. -/
lemma perm_of_matching [DecidableEq ν] (h : ∀ k, (matching l k).Perm (matching l' k)) :
    l.Perm l' := by
  rw [List.perm_iff_count]
  intro p
  have hcount : ∀ l : List (κ × ν), (matching l p.1).count p = l.count p := by
    intro l
    exact List.count_filter (by simp)
  rw [← hcount l, ← hcount l', (h p.1).count_eq p]

lemma perm_matching (h : l.Perm l') (k : κ) : (matching l k).Perm (matching l' k) := h.filter _

/-- Equal records cannot be told apart by their order. -/
lemma Single.matching_eq (h : Single l' k) (hperm : l.Perm l') : matching l k = matching l' k := by
  have hmatching := perm_matching hperm k
  cases hl : matching l' k with
  | nil =>
    rw [hl] at hmatching
    exact hmatching.eq_nil
  | cons p ps =>
    have hall : ∀ q ∈ matching l' k, q = p := fun q hq =>
      h q hq p (by rw [hl]; exact List.mem_cons_self)
    have hreplicate : matching l' k = List.replicate (matching l' k).length p :=
      List.eq_replicate_of_mem hall
    rw [← hl]
    rw [hreplicate] at hmatching ⊢
    exact List.perm_replicate.mp hmatching

end Records

/-! ## Sorting by the key -/

section Sorting

variable {κ ν : Type*} [LinearOrder κ]

/-- What a sort by the key promises. -/
structure IsSort (sort : List (κ × ν) → List (κ × ν)) : Prop where
  perm : ∀ l, (sort l).Perm l
  sorted : ∀ l, (sort l).Pairwise fun p q => p.1 ≤ q.1

/-- Where a binary search for `k` ends: at the first record whose key is not below it. -/
def lowerBound (l : List (κ × ν)) (k : κ) : ℕ := l.findIdx fun p => ¬ p.1 < k

/-- **A binary search finds the first record with the key**, if the list is in order. -/
lemma firstOf_eq_lowerBound {l : List (κ × ν)} (h : l.Pairwise fun p q => p.1 ≤ q.1) (k : κ) :
    firstOf l k = match l[lowerBound l k]? with
      | none => none
      | some p => if p.1 = k then some (lowerBound l k) else none := by
  induction l with
  | nil => rfl
  | cons p l ih =>
    obtain ⟨hp, hl⟩ := List.pairwise_cons.mp h
    rw [firstOf_cons, lowerBound, List.findIdx_cons]
    by_cases hlt : p.1 < k
    · rw [if_neg hlt.ne, ih hl, lowerBound]
      simp only [hlt, not_true_eq_false, decide_false, cond_false, List.getElem?_cons_succ]
      cases l[l.findIdx fun p => ¬ p.1 < k]? with
      | none => rfl
      | some q =>
        simp only
        split_ifs <;> rfl
    · simp only [hlt, not_false_eq_true, decide_true, cond_true, List.getElem?_cons_zero]
      split_ifs with hpk
      · rfl
      · -- the key would have to stand further ahead
        have hnone : firstOf l k = none := by
          rw [firstOf, List.findIdx?_eq_none_iff]
          intro q hq
          rw [decide_eq_false_iff_not]
          rintro rfl
          exact hpk (le_antisymm (hp q hq) (not_lt.mp hlt))
        rw [hnone]
        rfl

/-- How many records have a smaller key. -/
def below (l : List (κ × ν)) (k : κ) : ℕ := l.countP fun p => p.1 < k

lemma below_eq_of_perm {l l' : List (κ × ν)} (h : l.Perm l') (k : κ) : below l k = below l' k :=
  h.countP_eq _

lemma below_eq_of_keys {l l' : List (κ × ν)} (h : l.map (·.1) = l'.map (·.1)) (k : κ) :
    below l k = below l' k := by
  have hkeys : ∀ l : List (κ × ν), below l k = (l.map (·.1)).countP fun x => x < k := by
    intro l
    rw [below, List.countP_map]
    rfl
  rw [hkeys, hkeys, h]

/-- **In a list in order the first record with a key stands behind those with smaller keys.** -/
lemma firstOf_eq_below {l : List (κ × ν)} (h : l.Pairwise fun p q => p.1 ≤ q.1) {k : κ}
    (hsome : firstOf l k ≠ none) : firstOf l k = some (below l k) := by
  induction l with
  | nil => exact absurd rfl hsome
  | cons p l ih =>
    obtain ⟨hp, hl⟩ := List.pairwise_cons.mp h
    rw [firstOf_cons] at hsome ⊢
    rcases lt_trichotomy p.1 k with hlt | rfl | hgt
    · have hcons : below (p :: l) k = below l k + 1 :=
        List.countP_cons_of_pos (decide_eq_true hlt)
      rw [if_neg hlt.ne] at hsome ⊢
      rw [ih hl fun hnone => hsome (congrArg (Option.map (· + 1)) hnone), hcons]
      rfl
    · rw [if_pos rfl]
      have hnone : below (p :: l) p.1 = 0 := by
        rw [below, List.countP_eq_zero]
        intro q hq hlt
        rcases List.mem_cons.mp hq with rfl | hq
        · exact lt_irrefl _ (of_decide_eq_true hlt)
        · exact absurd (hp q hq) (not_le.mpr (of_decide_eq_true hlt))
      rw [hnone]
    · -- there is no record with the key
      rw [if_neg hgt.ne'] at hsome
      refine absurd ?_ hsome
      rw [Option.map_eq_none_iff, firstOf_eq_none_iff, matching, List.filter_eq_nil_iff]
      intro q hq hkey
      exact absurd (hp q hq) (not_le.mpr (of_decide_eq_true hkey ▸ hgt))

/-- The order by the key that puts the record `r` before the others with its key. -/
def Prefers (r p q : κ × ν) : Prop := p.1 < q.1 ∨ p.1 = q.1 ∧ (p = r ∨ q ≠ r)

variable [DecidableEq ν]

instance (r : κ × ν) : DecidableRel (Prefers r) := fun _ _ =>
  inferInstanceAs (Decidable (_ ∨ _ ∧ (_ ∨ _)))

instance (r : κ × ν) : Std.Total (Prefers r) where
  total p q := by
    rcases lt_trichotomy p.1 q.1 with hlt | heq | hlt
    · exact .inl (.inl hlt)
    · by_cases hq : q = r
      · exact .inr (.inr ⟨heq.symm, .inl hq⟩)
      · exact .inl (.inr ⟨heq, .inr hq⟩)
    · exact .inr (.inl hlt)

instance (r : κ × ν) : IsTrans (κ × ν) (Prefers r) where
  trans p q s := by
    rintro (hpq | ⟨hpq, hr⟩) (hqs | ⟨hqs, hr'⟩)
    · exact .inl (hpq.trans hqs)
    · exact .inl (hqs ▸ hpq)
    · exact .inl (hpq ▸ hqs)
    · refine .inr ⟨hpq.trans hqs, ?_⟩
      rcases hr with hp | hq
      · exact .inl hp
      · exact .inr (hr'.resolve_left hq)

/-- A sort that puts `r` before the other records with its key. -/
def preferring (r : κ × ν) (l : List (κ × ν)) : List (κ × ν) := l.insertionSort (Prefers r)

lemma isSort_preferring (r : κ × ν) : IsSort (preferring r) where
  perm l := List.perm_insertionSort _ l
  sorted l := (List.pairwise_insertionSort (Prefers r) l).imp fun h =>
    h.elim le_of_lt fun heq => heq.1.le

/-- **Any record may come first among those with its key.** -/
lemma head?_matching_preferring {r : κ × ν} {l : List (κ × ν)} (h : r ∈ l) :
    (matching (preferring r l) r.1).head? = some r := by
  have hmem : r ∈ matching (preferring r l) r.1 :=
    mem_matching.mpr ⟨(isSort_preferring r).perm l |>.mem_iff.mpr h, rfl⟩
  have hsorted : (matching (preferring r l) r.1).Pairwise (Prefers r) :=
    (List.pairwise_insertionSort (Prefers r) l).filter _
  have hkeys : ∀ p ∈ matching (preferring r l) r.1, p.1 = r.1 := fun p hp => (mem_matching.mp hp).2
  cases hl : matching (preferring r l) r.1 with
  | nil =>
    rw [hl] at hmem
    cases hmem
  | cons p ps =>
    rw [hl] at hmem hsorted hkeys
    rw [List.head?_cons]
    rcases List.mem_cons.mp hmem with rfl | hps
    · rfl
    · rcases (List.pairwise_cons.mp hsorted).1 r hps with hlt | ⟨-, hp | hne⟩
      · exact absurd (hkeys p List.mem_cons_self) hlt.ne
      · rw [hp]
      · exact absurd rfl hne

end Sorting

end ClientServer
