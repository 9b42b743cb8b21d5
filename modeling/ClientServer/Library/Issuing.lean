import ClientServer.Library.Runs
import Mathlib.Order.Basic
import Mathlib.Data.List.Pairwise

/-!
# Values handed out by calls

A call changes a state and may hand out a value; `issued` are the values that a sequence of calls
hands out, in order.  Where every value comes with a rise of a measure of the state, the values
rise from call to call.
-/

namespace ClientServer

section Issuing

variable {σ α β : Type*} (call : σ → α → Option (σ × Option β))

/-- The state after one call. -/
def afterCall (s : σ) (a : α) : Option σ := (call s a).map (·.1)

/-- The values handed out, up to the first call that does not return. -/
def issued : σ → List α → List β
  | _, [] => []
  | s, a :: as =>
    match call s a with
    | none => []
    | some (s', out) => out.toList ++ issued s' as

/-- The state after calls that all return. -/
def afterCalls : σ → List α → Option σ
  | s, [] => some s
  | s, a :: as => (afterCall call s a).bind fun s' => afterCalls s' as

variable {call} {s s' : σ} {a : α} {as bs : List α}

lemma issued_cons {out : Option β} (h : call s a = some (s', out)) :
    issued call s (a :: as) = out.toList ++ issued call s' as := by
  simp only [issued, h]

lemma afterCalls_cons (h : afterCall call s a = some s') :
    afterCalls call s (a :: as) = afterCalls call s' as := by
  simp only [afterCalls, h, Option.bind_some]

/-- Calls that all return, and others after them. -/
lemma issued_append (h : afterCalls call s as = some s') :
    issued call s (as ++ bs) = issued call s as ++ issued call s' bs := by
  induction as generalizing s with
  | nil =>
    cases h
    rfl
  | cons a as ih =>
    obtain ⟨t, ht, hrest⟩ := Option.bind_eq_some_iff.1 h
    obtain ⟨out, hcall⟩ := map_fst_eq_some.1 ht
    rw [List.cons_append, issued_cons hcall, issued_cons hcall, ih hrest, List.append_assoc]

/-- If the measure never falls, and passes strictly to the value that a call hands out, the
values rise. -/
lemma issued_pairwise_lt {ι : Type*} [Preorder ι] {Inv : σ → Prop} {C : σ → α → Prop}
    (rank : σ → ι) (val : β → ι)
    (hcall : ∀ s a s' out, Inv s → C s a → call s a = some (s', out) →
      Inv s' ∧ rank s ≤ rank s' ∧ ∀ b ∈ out, rank s < val b ∧ val b ≤ rank s')
    (hs : Inv s) (hC : Along (afterCall call) C s as) :
    (issued call s as).Pairwise (fun b b' => val b < val b') ∧
      ∀ b ∈ issued call s as, rank s < val b := by
  induction as generalizing s with
  | nil => exact ⟨List.Pairwise.nil, fun b hb => absurd hb List.not_mem_nil⟩
  | cons a as ih =>
    cases hca : call s a with
    | none =>
      have hnone : issued call s (a :: as) = [] := by simp only [issued, hca]
      rw [hnone]
      exact ⟨List.Pairwise.nil, fun b hb => absurd hb List.not_mem_nil⟩
    | some result =>
      obtain ⟨s', out⟩ := result
      obtain ⟨hCa, hCrest⟩ := hC s' (map_fst_eq_some.2 ⟨out, hca⟩)
      obtain ⟨hs', hle, hout⟩ := hcall s a s' out hs hCa hca
      obtain ⟨hpair, hlower⟩ := ih hs' hCrest
      rw [issued_cons hca]
      cases out with
      | none => exact ⟨hpair, fun b hb => lt_of_le_of_lt hle (hlower b hb)⟩
      | some b =>
        obtain ⟨hlt, hval⟩ := hout b rfl
        refine ⟨List.pairwise_cons.2 ⟨fun b' hb' => ?_, hpair⟩, fun b' hb' => ?_⟩
        · exact lt_of_le_of_lt hval (hlower b' hb')
        · obtain rfl | hb' := List.mem_cons.1 hb'
          · exact hlt
          · exact lt_of_le_of_lt hle (hlower b' hb')

end Issuing

end ClientServer
