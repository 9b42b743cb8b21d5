import Mathlib.Data.Finset.Insert
import Mathlib.Data.Finset.Erase

/-!
# A table of descriptors

The descriptors that a process has open, those of them that listen, and those that are
registered with one epoll instance.  Listening and registration end when a descriptor is closed,
so the fields of `FdTable` state that only open descriptors listen or are registered.  A number
that is not a descriptor is no error here: a call on it changes nothing.
-/

namespace ClientServer

/-- The open descriptors of a process, seen from one epoll instance. -/
structure FdTable where
  opened : Finset ℤ
  listening : Finset ℤ
  /-- The interest set of the epoll instance. -/
  watched : Finset ℤ
  nonneg : ∀ fd ∈ opened, 0 ≤ fd
  listening_opened : listening ⊆ opened
  watched_opened : watched ⊆ opened

namespace FdTable

/-- No descriptor is open. -/
def empty : FdTable where
  opened := ∅
  listening := ∅
  watched := ∅
  nonneg := by simp
  listening_opened := Finset.Subset.refl _
  watched_opened := Finset.Subset.refl _

/-- A number that a call which opens a descriptor may return. -/
def Fresh (t : FdTable) (fd : ℤ) : Prop := 0 ≤ fd ∧ fd ∉ t.opened

instance (t : FdTable) (fd : ℤ) : Decidable (t.Fresh fd) := inferInstanceAs (Decidable (_ ∧ _))

/-- A call that opens a descriptor returned `fd`; a negative `fd` is its failure. -/
def acquire (t : FdTable) (fd : ℤ) : FdTable where
  opened := if 0 ≤ fd then insert fd t.opened else t.opened
  listening := t.listening
  watched := t.watched
  nonneg := by
    intro x hx
    split_ifs at hx with hfd
    · obtain rfl | hx := Finset.mem_insert.1 hx
      · exact hfd
      · exact t.nonneg x hx
    · exact t.nonneg x hx
  listening_opened := by
    split_ifs
    · exact t.listening_opened.trans (Finset.subset_insert _ _)
    · exact t.listening_opened
  watched_opened := by
    split_ifs
    · exact t.watched_opened.trans (Finset.subset_insert _ _)
    · exact t.watched_opened

/-- `listen` succeeded. -/
def listen (t : FdTable) (fd : ℤ) : FdTable where
  opened := t.opened
  listening := if fd ∈ t.opened then insert fd t.listening else t.listening
  watched := t.watched
  nonneg := t.nonneg
  listening_opened := by
    split_ifs with hfd
    · exact Finset.insert_subset hfd t.listening_opened
    · exact t.listening_opened
  watched_opened := t.watched_opened

/-- `epoll_ctl` with `EPOLL_CTL_ADD` succeeded. -/
def watch (t : FdTable) (fd : ℤ) : FdTable where
  opened := t.opened
  listening := t.listening
  watched := if fd ∈ t.opened then insert fd t.watched else t.watched
  nonneg := t.nonneg
  listening_opened := t.listening_opened
  watched_opened := by
    split_ifs with hfd
    · exact Finset.insert_subset hfd t.watched_opened
    · exact t.watched_opened

/-- `epoll_ctl` with `EPOLL_CTL_DEL`. -/
def unwatch (t : FdTable) (fd : ℤ) : FdTable where
  opened := t.opened
  listening := t.listening
  watched := t.watched.erase fd
  nonneg := t.nonneg
  listening_opened := t.listening_opened
  watched_opened := (Finset.erase_subset _ _).trans t.watched_opened

/-- `close`. -/
def close (t : FdTable) (fd : ℤ) : FdTable where
  opened := t.opened.erase fd
  listening := t.listening.erase fd
  watched := t.watched.erase fd
  nonneg := fun x hx => t.nonneg x (Finset.mem_of_mem_erase hx)
  listening_opened := Finset.erase_subset_erase fd t.listening_opened
  watched_opened := Finset.erase_subset_erase fd t.watched_opened

variable {t : FdTable} {fd x : ℤ}

lemma not_mem_opened_of_neg (h : fd < 0) : fd ∉ t.opened :=
  fun hfd => absurd (t.nonneg fd hfd) (not_le.2 h)

/-- What a call that opens a descriptor returns was not open before it, failed or not. -/
lemma not_mem_opened_of_neg_one_or_fresh (h : fd = -1 ∨ t.Fresh fd) : fd ∉ t.opened := by
  obtain hnone | hfresh := h
  · rw [hnone]
    exact not_mem_opened_of_neg (by decide)
  · exact hfresh.2

lemma mem_opened_acquire : x ∈ (t.acquire fd).opened ↔ x = fd ∧ 0 ≤ fd ∨ x ∈ t.opened := by
  unfold acquire
  split_ifs with hfd
  · simp [hfd]
  · simp [hfd]

@[simp] lemma listening_watch : (t.watch fd).listening = t.listening := rfl

@[simp] lemma opened_close : (t.close fd).opened = t.opened.erase fd := rfl

lemma watched_watch (h : fd ∈ t.opened) : (t.watch fd).watched = insert fd t.watched :=
  if_pos h

lemma mem_watched_watch (h : fd ∈ t.opened) : fd ∈ (t.watch fd).watched := by
  rw [watched_watch h]
  exact Finset.mem_insert_self _ _

lemma listening_listen (h : fd ∈ t.opened) : (t.listen fd).listening = insert fd t.listening :=
  if_pos h

lemma mem_listening_listen (h : fd ∈ t.opened) : fd ∈ (t.listen fd).listening := by
  rw [listening_listen h]
  exact Finset.mem_insert_self _ _

/-- Closing what was just opened leaves the same descriptors open. -/
lemma opened_close_acquire (h : fd ∉ t.opened) : ((t.acquire fd).close fd).opened = t.opened := by
  ext x
  rw [opened_close, Finset.mem_erase, mem_opened_acquire]
  constructor
  · rintro ⟨hne, ⟨rfl, -⟩ | hx⟩
    · exact absurd rfl hne
    · exact hx
  · intro hx
    exact ⟨fun heq => h (heq ▸ hx), Or.inr hx⟩

end FdTable

end ClientServer
