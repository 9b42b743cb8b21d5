import Mathlib.Data.Nat.Notation
import Mathlib.Data.Option.Basic

/-!
# Runs of a machine

A machine is a function `step` that says what an action does to a state, and `none` where the
action is not enabled.  A run is a list of actions taken from a start state, up to the first
one that is not enabled.

`Along` says that something holds at every step of a run, `Throughout` that something holds in
every state it passes.  The lemmas package the induction over runs: an invariant that is
preserved by the steps that meet a condition gives, for every run whose steps all meet it, what
the invariant implies; and where a step that breaks the condition also breaks the property,
the property holds of exactly those runs.
-/

namespace ClientServer

section Runs

variable {σ α : Type*} (step : σ → α → Option σ)

/-- `P` holds of every step taken: of the state it is taken in and the action. -/
def Along (P : σ → α → Prop) : σ → List α → Prop
  | _, [] => True
  | s, a :: as => ∀ s', step s a = some s' → P s a ∧ Along P s' as

/-- `Q` holds of every state passed, the first and the last included. -/
def Throughout (Q : σ → Prop) : σ → List α → Prop
  | s, [] => Q s
  | s, a :: as => Q s ∧ ∀ s', step s a = some s' → Throughout Q s' as

/-- Steps that meet `C` keep `Inv`. -/
def Preserves (C : σ → α → Prop) (Inv : σ → Prop) : Prop :=
  ∀ s a s', Inv s → C s a → step s a = some s' → Inv s'

variable {step} {C P : σ → α → Prop} {Inv Q : σ → Prop}

lemma along_cons_of_eq {s t : σ} {a : α} {as : List α} (h : step s a = some t) :
    Along step P s (a :: as) ↔ P s a ∧ Along step P t as := by
  constructor
  · exact fun hall => hall t h
  · intro hall s' hs'
    rw [h] at hs'
    cases hs'
    exact hall

lemma throughout_cons_of_eq {s t : σ} {a : α} {as : List α} (h : step s a = some t) :
    Throughout step Q s (a :: as) ↔ Q s ∧ Throughout step Q t as := by
  constructor
  · exact fun hall => ⟨hall.1, hall.2 t h⟩
  · intro hall
    refine ⟨hall.1, fun s' hs' => ?_⟩
    rw [h] at hs'
    cases hs'
    exact hall.2

/-- A condition that these actions always meet. -/
lemma along_of_mem {as : List α} (h : ∀ a ∈ as, ∀ s, P s a) (s : σ) : Along step P s as := by
  induction as generalizing s with
  | nil => trivial
  | cons a as ih =>
    exact fun t _ => ⟨h a List.mem_cons_self s, ih (fun b hb => h b (List.mem_cons_of_mem a hb)) t⟩

/-- A condition that every step meets. -/
lemma along_of_forall (h : ∀ s a, P s a) (s : σ) (as : List α) : Along step P s as :=
  along_of_mem (fun a _ s => h s a) s

lemma Along.imp {P' : σ → α → Prop} (himp : ∀ s a, P s a → P' s a) {s : σ} {as : List α}
    (h : Along step P s as) : Along step P' s as := by
  induction as generalizing s with
  | nil => trivial
  | cons a as ih => exact fun t hstep => ⟨himp s a (h t hstep).1, ih (h t hstep).2⟩

lemma Along.and {P' : σ → α → Prop} {s : σ} {as : List α} (h : Along step P s as)
    (h' : Along step P' s as) : Along step (fun s a => P s a ∧ P' s a) s as := by
  induction as generalizing s with
  | nil => trivial
  | cons a as ih =>
    exact fun t hstep => ⟨⟨(h t hstep).1, (h' t hstep).1⟩, ih (h t hstep).2 (h' t hstep).2⟩

/-- A condition along a run and of all that comes after it. -/
lemma Along.append {s : σ} {as bs : List α} (h : Along step P s as)
    (hrest : ∀ t, Along step P t bs) : Along step P s (as ++ bs) := by
  induction as generalizing s with
  | nil => exact hrest s
  | cons a as ih =>
    intro t hstep
    exact ⟨(h t hstep).1, ih (h t hstep).2⟩

/-- A condition along a run is one along its beginnings. -/
lemma Along.of_isPrefix {s : σ} {as bs : List α} (h : Along step P s bs) (hpre : as <+: bs) :
    Along step P s as := by
  induction as generalizing s bs with
  | nil => trivial
  | cons a as ih =>
    obtain ⟨rest, rfl⟩ := hpre
    intro t hstep
    exact ⟨(h t hstep).1, ih (h t hstep).2 (List.prefix_append as rest)⟩

lemma Throughout.start {s : σ} {as : List α} (h : Throughout step Q s as) : Q s := by
  cases as with
  | nil => exact h
  | cons a as => exact h.1

/-- What every state passed gives holds of every state passed. -/
lemma Throughout.imp {Q' : σ → Prop} (himp : ∀ s, Q s → Q' s) {s : σ} {as : List α}
    (h : Throughout step Q s as) : Throughout step Q' s as := by
  induction as generalizing s with
  | nil => exact himp s h
  | cons a as ih => exact ⟨himp s h.1, fun t hstep => ih (h.2 t hstep)⟩

/-- A step that also says what it does outside: only the state goes on. -/
lemma map_fst_eq_some {β : Type*} {o : Option (σ × β)} {s : σ} :
    o.map (·.1) = some s ↔ ∃ b, o = some (s, b) := by
  rw [Option.map_eq_some_iff]
  constructor
  · rintro ⟨⟨s', b⟩, h, rfl⟩
    exact ⟨b, h⟩
  · rintro ⟨b, h⟩
    exact ⟨(s, b), h, rfl⟩

/-- Whether a condition is met along a given run can be computed. -/
instance decidableAlong [∀ s a, Decidable (P s a)] :
    ∀ (s : σ) (as : List α), Decidable (Along step P s as)
  | _, [] => isTrue trivial
  | s, a :: as =>
    match h : step s a with
    | none => isTrue fun s' hs' => absurd (h.symm.trans hs') (Option.some_ne_none s').symm
    | some t =>
      have := decidableAlong t as
      decidable_of_iff _ (along_cons_of_eq h).symm

instance decidableThroughout [DecidablePred Q] :
    ∀ (s : σ) (as : List α), Decidable (Throughout step Q s as)
  | s, [] => inferInstanceAs (Decidable (Q s))
  | s, a :: as =>
    match h : step s a with
    | none => decidable_of_iff (Q s) ⟨fun hs => ⟨hs, fun s' hs' =>
        absurd (h.symm.trans hs') (Option.some_ne_none s').symm⟩, fun hall => hall.1⟩
    | some t =>
      have := decidableThroughout t as
      decidable_of_iff _ (throughout_cons_of_eq h).symm

/-- What the invariant and the condition give of one step holds along the run. -/
lemma Preserves.along (hpres : Preserves step C Inv)
    (hP : ∀ s a s', Inv s → C s a → step s a = some s' → P s a) {s : σ} {as : List α}
    (hs : Inv s) (hC : Along step C s as) : Along step P s as := by
  induction as generalizing s with
  | nil => trivial
  | cons a as ih =>
    intro t hstep
    obtain ⟨hCa, hCrest⟩ := hC t hstep
    exact ⟨hP s a t hs hCa hstep, ih (hpres s a t hs hCa hstep) hCrest⟩

/-- What the invariant gives of one state holds throughout the run. -/
lemma Preserves.throughout (hpres : Preserves step C Inv) (hQ : ∀ s, Inv s → Q s) {s : σ}
    {as : List α} (hs : Inv s) (hC : Along step C s as) : Throughout step Q s as := by
  induction as generalizing s with
  | nil => exact hQ s hs
  | cons a as ih =>
    refine ⟨hQ s hs, fun t hstep => ?_⟩
    obtain ⟨hCa, hCrest⟩ := hC t hstep
    exact ih (hpres s a t hs hCa hstep) hCrest

/-- Among the steps that keep the invariant, a property of steps and a condition that agree
under it hold along the same runs. -/
lemma Preserves.along_iff {F : σ → α → Prop} (hpres : Preserves step F Inv)
    (hiff : ∀ s a s', Inv s → step s a = some s' → (P s a ↔ C s a)) {s : σ} {as : List α}
    (hs : Inv s) :
    Along step (fun s a => F s a ∧ P s a) s as ↔ Along step (fun s a => F s a ∧ C s a) s as := by
  induction as generalizing s with
  | nil => exact Iff.rfl
  | cons a as ih =>
    refine forall₂_congr fun t hstep => ?_
    show (F s a ∧ P s a) ∧ Along step _ t as ↔ (F s a ∧ C s a) ∧ Along step _ t as
    rw [hiff s a t hs hstep]
    exact and_congr_right fun hkeep => ih (hpres s a t hs hkeep.1 hstep)

/-- A property of steps and a condition that agree under an invariant hold along the same runs. -/
lemma Preserves.along_congr (hpres : Preserves step (fun _ _ => True) Inv)
    (hiff : ∀ s a s', Inv s → step s a = some s' → (P s a ↔ C s a)) {s : σ} {as : List α}
    (hs : Inv s) : Along step P s as ↔ Along step C s as := by
  induction as generalizing s with
  | nil => exact Iff.rfl
  | cons a as ih =>
    refine forall₂_congr fun t hstep => ?_
    rw [hiff s a t hs hstep, ih (hpres s a t hs trivial hstep)]

/-- Where every action is enabled, and what is said of a step depends on its action alone under an
invariant, it holds along a run if it does of the actions. -/
lemma Preserves.along_iff_forall {D : α → Prop} (hpres : Preserves step (fun _ _ => True) Inv)
    (henabled : ∀ s a, ∃ t, step s a = some t) (hiff : ∀ s a, Inv s → (P s a ↔ D a)) {s : σ}
    {as : List α} (hs : Inv s) : Along step P s as ↔ ∀ a ∈ as, D a := by
  induction as generalizing s with
  | nil => exact iff_of_true trivial (List.forall_mem_nil D)
  | cons a as ih =>
    obtain ⟨t, hstep⟩ := henabled s a
    rw [along_cons_of_eq hstep, List.forall_mem_cons, hiff s a hs,
      ih (hpres s a t hs trivial hstep)]

/-- If in addition every step that breaks the condition leads to a state without the property,
the property holds throughout exactly the runs that meet the condition. -/
lemma Preserves.throughout_iff (hpres : Preserves step C Inv) (hQ : ∀ s, Inv s → Q s)
    (hbad : ∀ s a s', Inv s → step s a = some s' → Q s' → C s a) {s : σ} {as : List α}
    (hs : Inv s) : Throughout step Q s as ↔ Along step C s as := by
  refine ⟨fun hall => ?_, hpres.throughout hQ hs⟩
  induction as generalizing s with
  | nil => trivial
  | cons a as ih =>
    intro t hstep
    have hrest := hall.2 t hstep
    have hCa := hbad s a t hs hstep hrest.start
    exact ⟨hCa, ih (hpres s a t hs hCa hstep) hrest⟩

/-- Where a step keeps the property exactly if it meets a condition, the property holds throughout
exactly the runs that meet it. -/
lemma Preserves.throughout_iff_along {F : σ → α → Prop} (hpres : Preserves step F Inv)
    (hiff : ∀ s a s', Inv s → F s a → step s a = some s' → Q s → (Q s' ↔ C s a)) {s : σ}
    {as : List α} (hs : Inv s) (hQ : Q s) (hF : Along step F s as) :
    Throughout step Q s as ↔ Along step C s as := by
  induction as generalizing s with
  | nil => exact iff_of_true hQ trivial
  | cons a as ih =>
    constructor
    · intro hall t hstep
      obtain ⟨hFa, hFrest⟩ := hF t hstep
      have hrest := hall.2 t hstep
      have hCa := (hiff s a t hs hFa hstep hQ).mp hrest.start
      exact ⟨hCa, (ih (hpres s a t hs hFa hstep) hrest.start hFrest).mp hrest⟩
    · intro hall
      refine ⟨hQ, fun t hstep => ?_⟩
      obtain ⟨hFa, hFrest⟩ := hF t hstep
      obtain ⟨hCa, hCrest⟩ := hall t hstep
      have hQt := (hiff s a t hs hFa hstep hQ).mpr hCa
      exact (ih (hpres s a t hs hFa hstep) hQt hFrest).mpr hCrest

/-! ## How often -/

/-- The steps of a run that are of a kind. -/
def countAlong (step : σ → α → Option σ) (K : σ → α → Bool) : σ → List α → ℕ
  | _, [] => 0
  | s, a :: as =>
    match step s a with
    | none => 0
    | some s' => (if K s a then 1 else 0) + countAlong step K s' as

/-- Where every step of a kind takes something from a rank, to which only steps of another kind add,
and those no more than `c`. -/
lemma Preserves.countAlong_le_add {K L : σ → α → Bool} {rank : σ → ℕ} {c : ℕ}
    (hpres : Preserves step (fun _ _ => True) Inv)
    (hrank : ∀ s a s', Inv s → step s a = some s' →
      (if K s a then 1 else 0) + rank s' ≤ rank s + c * (if L s a then 1 else 0))
    {s : σ} {as : List α} (hs : Inv s) :
    countAlong step K s as ≤ rank s + c * countAlong step L s as := by
  induction as generalizing s with
  | nil => exact Nat.zero_le _
  | cons a as ih =>
    rw [countAlong, countAlong]
    cases h : step s a with
    | none => exact Nat.zero_le _
    | some s' =>
      have hrest := ih (hpres s a s' hs trivial h)
      have hstep := hrank s a s' hs h
      show (if K s a then 1 else 0) + countAlong step K s' as ≤
        rank s + c * ((if L s a then 1 else 0) + countAlong step L s' as)
      rw [Nat.mul_add]
      omega

/-- Where every step of a kind takes something from a rank that no step adds to, there are no more
of them than the rank. -/
lemma Preserves.countAlong_le {K : σ → α → Bool} {rank : σ → ℕ}
    (hpres : Preserves step (fun _ _ => True) Inv)
    (hrank : ∀ s a s', Inv s → step s a = some s' →
      (if K s a then 1 else 0) + rank s' ≤ rank s) {s : σ} {as : List α} (hs : Inv s) :
    countAlong step K s as ≤ rank s := by
  have hnone (s a s') (hs : Inv s) (h : step s a = some s') :
      (if K s a then 1 else 0) + rank s' ≤ rank s + 0 * (if false then 1 else 0) :=
    Nat.le_add_right_of_le (hrank s a s' hs h)
  have hle : countAlong step K s as ≤ rank s + 0 * countAlong step (fun _ _ => false) s as :=
    hpres.countAlong_le_add hnone hs
  rwa [Nat.zero_mul, Nat.add_zero] at hle

end Runs

end ClientServer
