import Mathlib.Data.List.Infix

/-!
# What goes into a pipe and what comes out

A record of a byte stream on its way: `put` is what was handed over for transmission, in
order, and `out` what has arrived.  It is in order while what arrived is a prefix of what was
handed over; `missing` is then the rest.  Handing over more keeps it in order, and an arrival
does exactly if it continues the prefix (`inOrder_deliver_iff`).

The element type is arbitrary.
-/

namespace ClientServer

/-- What was handed over, and what of it has arrived. -/
structure Pipe (α : Type*) where
  put : List α
  out : List α
  deriving DecidableEq

namespace Pipe

variable {α : Type*} {p : Pipe α}

/-- Nothing handed over, nothing arrived. -/
def empty : Pipe α := ⟨[], []⟩

/-- No gap, and nothing out of order. -/
def InOrder (p : Pipe α) : Prop := p.out <+: p.put

instance [DecidableEq α] (p : Pipe α) : Decidable p.InOrder :=
  inferInstanceAs (Decidable (_ <+: _))

/-- What was handed over and has not arrived. -/
def missing (p : Pipe α) : List α := p.put.drop p.out.length

/-- More is handed over. -/
def feed (p : Pipe α) (xs : List α) : Pipe α := { p with put := p.put ++ xs }

/-- More arrives. -/
def deliver (p : Pipe α) (xs : List α) : Pipe α := { p with out := p.out ++ xs }

@[simp] lemma feed_put (xs : List α) : (p.feed xs).put = p.put ++ xs := rfl

@[simp] lemma feed_out (xs : List α) : (p.feed xs).out = p.out := rfl

@[simp] lemma deliver_put (xs : List α) : (p.deliver xs).put = p.put := rfl

@[simp] lemma deliver_out (xs : List α) : (p.deliver xs).out = p.out ++ xs := rfl

@[simp] lemma inOrder_empty : (empty : Pipe α).InOrder := List.prefix_refl _

/-- In order, what is missing is the rest. -/
lemma InOrder.out_append_missing (h : p.InOrder) : p.out ++ p.missing = p.put :=
  (List.prefix_append_drop h).symm

lemma InOrder.feed (h : p.InOrder) (xs : List α) : (p.feed xs).InOrder :=
  h.trans (List.prefix_append _ _)

lemma InOrder.missing_feed (h : p.InOrder) (xs : List α) :
    (p.feed xs).missing = p.missing ++ xs :=
  List.drop_append_of_le_length h.length_le

/-- **What arrives has to be what is missing next.** -/
lemma inOrder_deliver_iff (h : p.InOrder) {xs : List α} :
    (p.deliver xs).InOrder ↔ xs <+: p.missing := by
  rw [InOrder, deliver_put, deliver_out, ← h.out_append_missing, List.prefix_append_right_inj]

lemma missing_deliver (xs : List α) : (p.deliver xs).missing = p.missing.drop xs.length := by
  rw [missing, missing, deliver_put, deliver_out, List.length_append, List.drop_drop]

/-- A chunk of which the first `k` elements arrive at once: behind a gap they have to continue
what is missing by coincidence. -/
lemma inOrder_feed_deliver_iff (h : p.InOrder) (xs : List α) (k : ℕ) :
    ((p.feed xs).deliver (xs.take k)).InOrder ↔ xs.take k <+: p.missing ++ xs := by
  rw [inOrder_deliver_iff (h.feed xs), h.missing_feed]

end Pipe

end ClientServer
