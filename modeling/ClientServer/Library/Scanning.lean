import Mathlib.Data.List.Basic
import Mathlib.Tactic.Common

/-!
# Reading an arbitrary stream from the front

A `Scanner` looks at the symbols in front of it and either takes some of them, for an item or to
skip them, or waits for more.  What it takes does not depend on what comes behind: that is
`next_append`, and it is all that a reader needs to be independent of how its stream is cut up.
`items` are the items of a whole stream and `rest` is what is still waiting at its end; a stream
that goes on is read like its `rest` with the new symbols behind it (`items_append`).

Nothing is assumed of the stream.
-/

namespace ClientServer

/-- The words stand in the stream, each in one piece and one behind another; what stands between
them does not matter. -/
def InOrder {β : Type*} : List (List β) → List β → Prop
  | [], _ => True
  | word :: words, bs => ∃ between rest, bs = between ++ (word ++ rest) ∧ InOrder words rest

namespace InOrder

variable {β : Type*} {words words' : List (List β)} {bs : List β}

lemma append_left (h : InOrder words bs) (more : List β) : InOrder words (more ++ bs) := by
  cases words with
  | nil => trivial
  | cons word words =>
    obtain ⟨between, rest, rfl, hrest⟩ := h
    exact ⟨more ++ between, rest, (List.append_assoc _ _ _).symm, hrest⟩

lemma of_append (h : InOrder (words ++ words') bs) : InOrder words bs := by
  induction words generalizing bs with
  | nil => trivial
  | cons word words ih =>
    obtain ⟨between, rest, hbs, hrest⟩ := h
    exact ⟨between, rest, hbs, ih hrest⟩

end InOrder

/-- What a reader makes of the symbols in front of it. -/
structure Scanner (α β : Type*) where
  /-- How many symbols are taken, and the item they are, if they are one; nothing while the
  reader waits for more. -/
  next : List β → Option (Option α × ℕ)
  next_pos : ∀ bs o n, next bs = some (o, n) → 0 < n
  next_le_length : ∀ bs o n, next bs = some (o, n) → n ≤ bs.length
  next_append : ∀ bs o n more, next bs = some (o, n) → next (bs ++ more) = some (o, n)

namespace Scanner

variable {α β : Type*} (c : Scanner α β) {bs : List β} {o : Option α} {n : ℕ}

lemma length_drop_lt (h : c.next bs = some (o, n)) : (bs.drop n).length < bs.length := by
  have hpos := c.next_pos bs o n h
  have hle := c.next_le_length bs o n h
  rw [List.length_drop]
  omega

/-- The items of a stream. -/
def items (bs : List β) : List α :=
  match _h : c.next bs with
  | none => []
  | some (o, n) => o.toList ++ items (bs.drop n)
termination_by bs.length
decreasing_by exact c.length_drop_lt _h

/-- What the reader waits in front of at the end of a stream. -/
def rest (bs : List β) : List β :=
  match _h : c.next bs with
  | none => bs
  | some (_, n) => rest (bs.drop n)
termination_by bs.length
decreasing_by exact c.length_drop_lt _h

lemma items_of_none (h : c.next bs = none) : c.items bs = [] := by
  rw [items]
  split <;> simp_all

lemma items_of_some (h : c.next bs = some (o, n)) :
    c.items bs = o.toList ++ c.items (bs.drop n) := by
  rw [items]
  split <;> simp_all

lemma rest_of_none (h : c.next bs = none) : c.rest bs = bs := by
  rw [rest]
  split <;> simp_all

lemma rest_of_some (h : c.next bs = some (o, n)) : c.rest bs = c.rest (bs.drop n) := by
  rw [rest]
  split <;> simp_all

/-- What is in front is read alike with more behind it. -/
lemma items_append_of_some (h : c.next bs = some (o, n)) (more : List β) :
    c.items (bs ++ more) = o.toList ++ c.items (bs.drop n ++ more) := by
  rw [c.items_of_some (c.next_append bs o n more h),
    List.drop_append_of_le_length (c.next_le_length bs o n h)]

/-- **A stream that goes on** gives the items it gave, and then what the rest gives with the new
symbols behind it. -/
lemma items_append (bs more : List β) :
    c.items (bs ++ more) = c.items bs ++ c.items (c.rest bs ++ more) := by
  induction bs using Scanner.items.induct c with
  | case1 bs h => rw [c.items_of_none h, c.rest_of_none h, List.nil_append]
  | case2 bs o n h ih =>
    rw [c.items_append_of_some h, c.items_of_some h, c.rest_of_some h, ih, List.append_assoc]

/-- The items of a beginning come first. -/
lemma items_prefix {as bs : List β} (h : as <+: bs) : c.items as <+: c.items bs := by
  obtain ⟨more, rfl⟩ := h
  rw [c.items_append]
  exact List.prefix_append _ _

/-- Where the symbols taken for an item are its code, the codes of all the items stand in the
stream, one behind another. -/
lemma inOrder_items (encode : α → List β)
    (h : ∀ bs a n, c.next bs = some (some a, n) → encode a = bs.take n) (bs : List β) :
    InOrder ((c.items bs).map encode) bs := by
  induction bs using Scanner.items.induct c with
  | case1 bs hnext =>
    rw [c.items_of_none hnext]
    trivial
  | case2 bs o n hnext ih =>
    rw [c.items_of_some hnext]
    cases o with
    | none =>
      have hrest := ih.append_left (bs.take n)
      rwa [List.take_append_drop] at hrest
    | some a =>
      refine ⟨[], bs.drop n, ?_, ih⟩
      rw [h bs a n hnext, List.nil_append, List.take_append_drop]

end Scanner

end ClientServer
