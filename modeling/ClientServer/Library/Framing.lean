import Mathlib.Data.List.Basic
import Mathlib.Tactic.Common

/-!
# Self-delimiting frames on a stream

A `FrameCode` encodes each message as a nonempty run of symbols that announces its own end:
decoding an encoded frame followed by anything gives the frame back, and a proper prefix of
an encoded frame decodes to nothing.  A receiver that has seen the first `n` symbols of a
concatenation of frames, and has already consumed the first `j` of them, therefore finds the
next frame exactly when that frame lies whole within the `n` symbols: `decode_at` is the one
fact about streams that a reader of such a format needs.

The second part is about a reader that makes one attempt per arrival.  `serve` counts the
frames it has delivered, and `le_serve_iff` says when it delivers all of them: no tail of the
arrivals may complete more frames than it has arrivals.
-/

namespace ClientServer

/-- A code whose words announce their own end. -/
structure FrameCode (α β : Type*) where
  /-- The symbols of one frame. -/
  encode : α → List β
  /-- The frame at the start of a run of symbols and its length, if it is there whole. -/
  decode : List β → Option (α × ℕ)
  encode_ne_nil : ∀ a, encode a ≠ []
  decode_nil : decode [] = none
  decode_encode_append : ∀ a rest, decode (encode a ++ rest) = some (a, (encode a).length)
  decode_take : ∀ a n, n < (encode a).length → decode ((encode a).take n) = none

namespace FrameCode

variable {α β : Type*} (c : FrameCode α β)

/-- The stream that carries the frames in order. -/
def encodeAll (fs : List α) : List β := fs.flatMap c.encode

/-- Where the `j`-th frame of the stream starts. -/
def offset (fs : List α) (j : ℕ) : ℕ := (c.encodeAll (fs.take j)).length

/-- How many frames lie whole within the first `n` symbols of the stream. -/
def wholeFrames : List α → ℕ → ℕ
  | [], _ => 0
  | f :: fs, n =>
    if (c.encode f).length ≤ n then wholeFrames fs (n - (c.encode f).length) + 1 else 0

@[simp] lemma encodeAll_nil : c.encodeAll [] = [] := rfl

@[simp] lemma encodeAll_cons (f : α) (fs : List α) :
    c.encodeAll (f :: fs) = c.encode f ++ c.encodeAll fs := List.flatMap_cons

@[simp] lemma offset_zero (fs : List α) : c.offset fs 0 = 0 := by
  simp [offset]

@[simp] lemma offset_cons_succ (f : α) (fs : List α) (j : ℕ) :
    c.offset (f :: fs) (j + 1) = (c.encode f).length + c.offset fs j := by
  simp [offset]

lemma length_encode_pos (a : α) : 0 < (c.encode a).length :=
  List.length_pos_iff.mpr (c.encode_ne_nil a)

/-! ## Frames within a prefix of the stream -/

lemma wholeFrames_le_length (fs : List α) (n : ℕ) : c.wholeFrames fs n ≤ fs.length := by
  induction fs generalizing n with
  | nil => simp [wholeFrames]
  | cons f fs ih =>
    rw [wholeFrames]
    split_ifs with h
    · exact Nat.succ_le_succ (ih _)
    · exact Nat.zero_le _

@[simp] lemma wholeFrames_zero (fs : List α) : c.wholeFrames fs 0 = 0 := by
  cases fs with
  | nil => rfl
  | cons f fs =>
    have hpos := c.length_encode_pos f
    rw [wholeFrames, if_neg (by omega)]

lemma wholeFrames_mono (fs : List α) {m n : ℕ} (h : m ≤ n) :
    c.wholeFrames fs m ≤ c.wholeFrames fs n := by
  induction fs generalizing m n with
  | nil => simp [wholeFrames]
  | cons f fs ih =>
    rw [wholeFrames, wholeFrames]
    split_ifs with hm hn
    · exact Nat.succ_le_succ (ih (by omega))
    · omega
    · exact Nat.zero_le _
    · exact Nat.le_refl _

/-- Frames that lie whole within the first `n` symbols end there. -/
lemma offset_le_of_le_wholeFrames (fs : List α) {j n : ℕ} (h : j ≤ c.wholeFrames fs n) :
    c.offset fs j ≤ n := by
  induction fs generalizing j n with
  | nil => simp [offset]
  | cons f fs ih =>
    cases j with
    | zero => simp
    | succ j =>
      rw [wholeFrames] at h
      split_ifs at h with hn
      · have hrest := ih (j := j) (n := n - (c.encode f).length) (by omega)
        rw [offset_cons_succ]
        omega
      · omega

lemma offset_succ (fs : List α) {j : ℕ} (h : j < fs.length) :
    c.offset fs (j + 1) = c.offset fs j + (c.encode fs[j]).length := by
  induction fs generalizing j with
  | nil => simp at h
  | cons f fs ih =>
    cases j with
    | zero => simp
    | succ j =>
      have hj : j < fs.length := by simpa using h
      rw [offset_cons_succ, ih hj, offset_cons_succ, List.getElem_cons_succ, Nat.add_assoc]

/-- What a reader at a frame boundary has in front of it while the next frame is not all
there: nothing, or a proper prefix of a frame. -/
def Partial (bs : List β) : Prop :=
  bs = [] ∨ ∃ a n, n < (c.encode a).length ∧ bs = (c.encode a).take n

lemma decode_eq_none {bs : List β} (h : c.Partial bs) : c.decode bs = none := by
  rcases h with rfl | ⟨a, n, hn, rfl⟩
  · exact c.decode_nil
  · exact c.decode_take a n hn

/-- **Decoding at a frame boundary.**  With the first `n` symbols of the stream at hand and
the first `j` frames consumed, the next frame is there exactly when it lies whole within the
`n` symbols; otherwise the reader has a partial frame in front of it. -/
lemma decode_at (fs : List α) {j n : ℕ} (hj : j ≤ c.wholeFrames fs n) :
    (∃ h : j < fs.length, j < c.wholeFrames fs n ∧
      c.decode (((c.encodeAll fs).take n).drop (c.offset fs j)) =
        some (fs[j], (c.encode fs[j]).length)) ∨
    (j = c.wholeFrames fs n ∧
      c.Partial (((c.encodeAll fs).take n).drop (c.offset fs j))) := by
  induction fs generalizing j n with
  | nil =>
    right
    have hzero : j = 0 := by simpa [wholeFrames] using hj
    subst hzero
    simp [wholeFrames, Partial]
  | cons f fs ih =>
    cases j with
    | zero =>
      simp only [offset_zero, List.drop_zero, encodeAll_cons, wholeFrames]
      by_cases hn : (c.encode f).length ≤ n
      · left
        refine ⟨by simp, by rw [if_pos hn]; omega, ?_⟩
        rw [List.take_append, List.take_of_length_le hn]
        exact c.decode_encode_append f _
      · right
        refine ⟨by rw [if_neg hn], ?_⟩
        rw [List.take_append_of_le_length (by omega)]
        exact Or.inr ⟨f, n, by omega, rfl⟩
    | succ j =>
      -- the first frame is behind the reader: drop it and use the induction hypothesis
      have hn : (c.encode f).length ≤ n := by
        by_contra hn
        rw [wholeFrames, if_neg hn] at hj
        omega
      have hstream : ((c.encodeAll (f :: fs)).take n).drop (c.offset (f :: fs) (j + 1)) =
          ((c.encodeAll fs).take (n - (c.encode f).length)).drop (c.offset fs j) := by
        rw [encodeAll_cons, List.take_append, List.take_of_length_le hn, offset_cons_succ,
          ← List.drop_drop, List.drop_left]
      rw [wholeFrames, if_pos hn] at hj ⊢
      rw [hstream]
      rcases ih (j := j) (n := n - (c.encode f).length) (by omega) with
        ⟨hlt, hwhole, hdec⟩ | ⟨heq, hdec⟩
      · exact Or.inl ⟨by simpa using hlt, by omega, by simpa using hdec⟩
      · exact Or.inr ⟨by omega, hdec⟩

end FrameCode

/-! ## One attempt per arrival -/

/-- Frames delivered by a reader that makes one attempt after each arrival.  The list gives,
for each arrival, how many frames are complete once it is in; `j` is the number delivered
before. -/
def serve (j : ℕ) : List ℕ → ℕ
  | [] => j
  | c :: cs => serve (if j < c then j + 1 else j) cs

lemma le_serve (j : ℕ) (cs : List ℕ) : j ≤ serve j cs := by
  induction cs generalizing j with
  | nil => exact Nat.le_refl _
  | cons c cs ih =>
    rw [serve]
    have := ih (if j < c then j + 1 else j)
    split_ifs at this ⊢ <;> omega

/-- Of the frames delivered from `j` on, where `j` is, that one is the first. -/
lemma take_serve_succ {α : Type*} {xs : List α} {j : ℕ} (hj : j < xs.length) (cs : List ℕ) :
    (xs.drop j).take (serve (j + 1) cs - j) =
      xs[j] :: (xs.drop (j + 1)).take (serve (j + 1) cs - (j + 1)) := by
  have hle : j + 1 ≤ serve (j + 1) cs := le_serve _ _
  have hcount : serve (j + 1) cs - j = (serve (j + 1) cs - (j + 1)) + 1 := by omega
  rw [hcount, List.drop_eq_getElem_cons hj, List.take_succ_cons]

/-- All `n` frames are delivered exactly when no tail of the arrivals has to deliver more
frames than it has arrivals. -/
lemma le_serve_iff {n j : ℕ} {cs : List ℕ} (hmono : (j :: cs).Pairwise (· ≤ ·)) :
    n ≤ serve j cs ↔
      n ≤ j + cs.length ∧ ∀ k (h : k < cs.length), n ≤ cs[k] + (cs.length - (k + 1)) := by
  induction cs generalizing j with
  | nil => simp [serve]
  | cons c cs ih =>
    obtain ⟨hj, hc⟩ := List.pairwise_cons.mp hmono
    obtain ⟨hcs, htail⟩ := List.pairwise_cons.mp hc
    have hjc : j ≤ c := hj c (by simp)
    have hnext : ((if j < c then j + 1 else j) :: cs).Pairwise (· ≤ ·) := by
      refine List.pairwise_cons.mpr ⟨fun d hd => ?_, htail⟩
      have := hcs d hd
      split_ifs <;> omega
    rw [serve, ih hnext]
    constructor
    · rintro ⟨hhead, hrest⟩
      refine ⟨by simp only [List.length_cons]; split_ifs at hhead <;> omega, ?_⟩
      intro k hk
      cases k with
      | zero =>
        simp only [List.getElem_cons_zero, List.length_cons]
        split_ifs at hhead <;> omega
      | succ k =>
        have := hrest k (by simpa using hk)
        simp only [List.getElem_cons_succ, List.length_cons]
        omega
    · rintro ⟨hhead, hrest⟩
      refine ⟨?_, fun k hk => ?_⟩
      · have hzero := hrest 0 (by simp)
        simp only [List.getElem_cons_zero, List.length_cons] at hzero hhead
        split_ifs <;> omega
      · have := hrest (k + 1) (by simpa using hk)
        simp only [List.getElem_cons_succ, List.length_cons] at this
        omega

end ClientServer
