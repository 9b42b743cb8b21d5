import ClientServer.Library.Runs
import Mathlib.Data.Fintype.Defs
import Mathlib.Logic.Function.Basic
import Mathlib.Logic.Relation

/-!
# Refinement

A machine refines another one if each of its steps can be followed by steps of the other, none or
several, so that the two states stay related.  Then every run of the first stays related to states
that the second one reaches.

The second machine may consist of parts that step by themselves: `each` lets the parts of a family
take the steps of one machine, one part at a time.
-/

namespace ClientServer

section Refinement

variable {σ α τ β ι : Type*} {step : σ → α → Option σ} {astep : τ → β → Option τ}

/-- The machine gets from one state to the other. -/
def Reaches (astep : τ → β → Option τ) : τ → τ → Prop :=
  Relation.ReflTransGen fun o o' => ∃ b, astep o b = some o'

/-- No step or one. -/
def Moves (astep : τ → β → Option τ) (o o' : τ) : Prop := o' = o ∨ ∃ b, astep o b = some o'

/-- Every step can be followed, and the states stay related. -/
def Simulates (step : σ → α → Option σ) (astep : τ → β → Option τ) (R : σ → τ → Prop) : Prop :=
  ∀ s a s' o, R s o → step s a = some s' → ∃ o', Reaches astep o o' ∧ R s' o'

/-- Throughout a run there is a related state that the other machine reaches. -/
lemma Simulates.throughout {R : σ → τ → Prop} (h : Simulates step astep R) {s : σ} {o : τ}
    (hR : R s o) (as : List α) :
    Throughout step (fun s => ∃ o', Reaches astep o o' ∧ R s o') s as := by
  have hpres : Preserves step (fun _ _ => True) fun s => ∃ o', Reaches astep o o' ∧ R s o' := by
    rintro s a s' ⟨o', hreach, hR'⟩ - hstep
    obtain ⟨o'', hreach', hR''⟩ := h s a s' o' hR' hstep
    exact ⟨o'', hreach.trans hreach', hR''⟩
  exact hpres.throughout (fun _ h => h) ⟨o, .refl, hR⟩ (along_of_forall (fun _ _ => trivial) s as)

/-- One part of a family steps. -/
def each [DecidableEq ι] (astep : τ → β → Option τ) (os : ι → τ) (b : ι × β) : Option (ι → τ) :=
  (astep (os b.1) b.2).map (Function.update os b.1)

lemma Moves.reaches_each [DecidableEq ι] {os : ι → τ} {i : ι} {o' : τ}
    (h : Moves astep (os i) o') : Reaches (each astep) os (Function.update os i o') := by
  rcases h with rfl | ⟨b, hb⟩
  · rw [Function.update_eq_self]
    exact .refl
  · refine .single ⟨(i, b), ?_⟩
    rw [each, hb]
    rfl

end Refinement

end ClientServer
