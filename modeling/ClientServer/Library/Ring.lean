import Mathlib.Algebra.Order.Group.Multiset
import Mathlib.Data.Multiset.Range

/-!
# A ring of requests

A program allocates requests, prepares them in a submission queue of bounded length, and hands
the whole queue to somebody who works on them; when one has completed, the program gets it back
and frees it.  Every allocation has a serial number, so that requests which ask for the same
thing can be told apart, and so that it can be said that each is freed once.

`Keeps` is the invariant a program maintains: which requests are queued or in flight, and that
every serial number is of a request that is queued, in flight, held by the program, or freed.
There is one rule for each operation.
-/

namespace ClientServer

/-- An allocated request: the number of requests allocated before it, and what it asks for. -/
structure Ticket (κ : Type*) where
  serial : ℕ
  request : κ
  deriving DecidableEq

/-- The requests of a program. -/
structure Ring (κ : Type*) where
  queued : List (Ticket κ)
  inFlight : List (Ticket κ)
  freed : List (Ticket κ)
  allocated : ℕ

namespace Ring

variable {κ : Type*}

/-- No request was allocated yet. -/
def empty : Ring κ := ⟨[], [], [], 0⟩

/-- A request is allocated and put in the queue. -/
def push (g : Ring κ) (k : κ) : Ring κ :=
  { g with queued := g.queued ++ [⟨g.allocated, k⟩], allocated := g.allocated + 1 }

/-- The same for a queue of `entries` entries: nothing is allocated if there is none left. -/
def prepare (entries : ℕ) (g : Ring κ) (k : κ) : Option (Ring κ) :=
  if g.queued.length < entries then some (g.push k) else none

/-- The queue is handed over. -/
def submit (g : Ring κ) : Ring κ := { g with queued := [], inFlight := g.inFlight ++ g.queued }

/-- A request comes back. -/
def complete [DecidableEq κ] (g : Ring κ) (t : Ticket κ) : Ring κ :=
  { g with inFlight := g.inFlight.erase t }

/-- A request is freed. -/
def free (g : Ring κ) (t : Ticket κ) : Ring κ := { g with freed := t :: g.freed }

/-- The requests that are queued or in flight. -/
def live (g : Ring κ) : Multiset (Ticket κ) := g.queued + g.inFlight

/-- What is queued or in flight asks for `expected`, and every request allocated is queued, in
flight, in `held` or freed, exactly once. -/
structure Keeps (g : Ring κ) (held : Multiset (Ticket κ)) (expected : Multiset κ) : Prop where
  requests : g.live.map Ticket.request = expected
  serials : (g.live + g.freed + held).map Ticket.serial = Multiset.range g.allocated

variable {g : Ring κ} {held : Multiset (Ticket κ)} {expected : Multiset κ} {t : Ticket κ}

lemma prepare_of_room {entries : ℕ} (h : g.queued.length < entries) (k : κ) :
    g.prepare entries k = some (g.push k) := if_pos h

lemma live_push (g : Ring κ) (k : κ) : (g.push k).live = ⟨g.allocated, k⟩ ::ₘ g.live := by
  show ((g.queued ++ [(⟨g.allocated, k⟩ : Ticket κ)] : List _) : Multiset (Ticket κ)) + g.inFlight
    = _
  rw [← Multiset.coe_add, Multiset.coe_singleton, add_assoc, add_left_comm,
    Multiset.singleton_add]
  rfl

lemma live_submit (g : Ring κ) : g.submit.live = g.live := by
  show (([] : List (Ticket κ)) : Multiset (Ticket κ)) + ((g.inFlight ++ g.queued : List _)) = _
  rw [Multiset.coe_nil, zero_add, ← Multiset.coe_add, add_comm]
  rfl

lemma live_complete [DecidableEq κ] (ht : t ∈ g.inFlight) :
    t ::ₘ (g.complete t).live = g.live := by
  show t ::ₘ ((g.queued : Multiset (Ticket κ)) + (g.inFlight.erase t : List _)) = _
  rw [← Multiset.add_cons, ← Multiset.coe_erase, Multiset.cons_erase (Multiset.mem_coe.2 ht)]
  rfl

lemma live_of_queued_eq_nil (h : g.queued = []) : g.live = g.inFlight := by
  unfold live
  rw [h, Multiset.coe_nil, zero_add]

lemma keeps_empty : (empty : Ring κ).Keeps 0 0 := ⟨rfl, rfl⟩

namespace Keeps

lemma push (h : g.Keeps held expected) (k : κ) : (g.push k).Keeps held (k ::ₘ expected) where
  requests := by rw [live_push, Multiset.map_cons, h.requests]
  serials := by
    show (((g.push k).live + g.freed + held).map Ticket.serial) = Multiset.range (g.allocated + 1)
    rw [live_push, Multiset.cons_add, Multiset.cons_add, Multiset.map_cons, h.serials,
      Multiset.range_succ]

lemma submit (h : g.Keeps held expected) : g.submit.Keeps held expected where
  requests := by rw [live_submit, h.requests]
  serials := by
    rw [live_submit]
    exact h.serials

lemma complete [DecidableEq κ] (h : g.Keeps held (t.request ::ₘ expected)) (ht : t ∈ g.inFlight) :
    (g.complete t).Keeps (t ::ₘ held) expected where
  requests := by
    have hlive := h.requests
    rw [← live_complete ht, Multiset.map_cons] at hlive
    exact (Multiset.cons_inj_right _).1 hlive
  serials := by
    have hserials := h.serials
    rw [← live_complete ht, Multiset.cons_add, Multiset.cons_add, ← Multiset.add_cons] at hserials
    exact hserials

lemma free (h : g.Keeps (t ::ₘ held) expected) : (g.free t).Keeps held expected where
  requests := h.requests
  serials := by
    show (g.live + ((t :: g.freed : List _) : Multiset (Ticket κ)) + held).map Ticket.serial = _
    rw [← Multiset.cons_coe, Multiset.add_cons, Multiset.cons_add, ← Multiset.add_cons]
    exact h.serials

/-- What is in flight was expected. -/
lemma mem_expected (h : g.Keeps held expected) (ht : t ∈ g.inFlight) : t.request ∈ expected := by
  rw [← h.requests]
  exact Multiset.mem_map_of_mem _ (Multiset.mem_add.2 (Or.inr (Multiset.mem_coe.2 ht)))

end Keeps

end Ring

end ClientServer
