import Mathlib.Data.Nat.Bits
import Mathlib.Tactic.Ring

/-!
# Bit fields

Three fields of a 64-bit word: a high field over a middle and a low one of given widths, put
together by shifts and `|`, and taken apart by shifts and masks.  Where the values fit their
fields the word is a sum, so that the fields come out as they went in.

A tag in a byte: some of its bits are kept, and a value is put into the others.
-/

namespace ClientServer

/-! ## A tag in a byte -/

section Tag

variable {x keep mask tag : UInt8}

/-- The bits of the tag come out of the byte as they were put in. -/
lemma tag_and_mask (hkeep : keep &&& mask = 0) (htag : tag &&& mask = tag) :
    ((x &&& keep) ||| tag) &&& mask = tag := by
  have hdistrib : ((x &&& keep) ||| tag) &&& mask = (x &&& keep &&& mask) ||| (tag &&& mask) :=
    UInt8.toBitVec_inj.mp BitVec.and_or_distrib_right
  rw [hdistrib, UInt8.and_assoc, hkeep, htag, UInt8.and_zero, UInt8.zero_or]

/-- A byte that has the tag is not changed. -/
lemma tag_of_and_mask (hkeep : keep ||| mask = -1) (hx : x &&& mask = tag) :
    (x &&& keep) ||| tag = x := by
  have hdistrib : x &&& (keep ||| mask) = (x &&& keep) ||| (x &&& mask) :=
    UInt8.toBitVec_inj.mp BitVec.and_or_distrib_left
  rw [← hx, ← hdistrib, hkeep, UInt8.and_neg_one]

end Tag

/-! ## Three fields of a word -/

/-- The widths of the middle and of the low field; the high field has the rest. -/
structure FieldLayout where
  mid : ℕ
  low : ℕ
  lt_word : mid + low < 64

namespace FieldLayout

variable (l : FieldLayout)

/-- Values that fit their fields. -/
structure Fits (hi mid lo : UInt64) : Prop where
  high : hi.toNat < 2 ^ (64 - (l.mid + l.low))
  mid : mid.toNat < 2 ^ l.mid
  low : lo.toNat < 2 ^ l.low

/-- The word of three fields. -/
def pack (hi mid lo : UInt64) : UInt64 :=
  (hi <<< UInt64.ofNat (l.mid + l.low)) ||| (mid <<< UInt64.ofNat l.low) ||| lo

/-- The high field. -/
def highOf (w : UInt64) : UInt64 := w >>> UInt64.ofNat (l.mid + l.low)

/-- The middle field. -/
def midOf (w : UInt64) : UInt64 := (w >>> UInt64.ofNat l.low) &&& UInt64.ofNat (2 ^ l.mid - 1)

/-- The low field. -/
def lowOf (w : UInt64) : UInt64 := w &&& UInt64.ofNat (2 ^ l.low - 1)

variable {l} {hi mid lo : UInt64}

lemma toNat_ofNat_mod {k : ℕ} (h : k < 64) : (UInt64.ofNat k).toNat % 64 = k := by
  have hsize : (UInt64.ofNat k).toNat = k := UInt64.toNat_ofNat_of_lt' (by
    show k < 2 ^ 64
    omega)
  rw [hsize, Nat.mod_eq_of_lt h]

/-- A shift that loses no bit is a multiplication. -/
lemma toNat_shiftLeft_of_lt {x : UInt64} {k : ℕ} (hk : k < 64) (hx : x.toNat * 2 ^ k < 2 ^ 64) :
    (x <<< UInt64.ofNat k).toNat = x.toNat * 2 ^ k := by
  rw [UInt64.toNat_shiftLeft, toNat_ofNat_mod hk, Nat.shiftLeft_eq, Nat.mod_eq_of_lt hx]

/-- A mask of `k` bits. -/
lemma toNat_and_mask {x : UInt64} {k : ℕ} (hk : k < 64) :
    (x &&& UInt64.ofNat (2 ^ k - 1)).toNat = x.toNat % 2 ^ k := by
  have hlt : 2 ^ k - 1 < 2 ^ 64 :=
    lt_of_le_of_lt (Nat.sub_le _ _) (Nat.pow_lt_pow_right (by decide) hk)
  rw [UInt64.toNat_and, UInt64.toNat_ofNat_of_lt' hlt, Nat.and_two_pow_sub_one_eq_mod]

lemma toNat_shiftRight_ofNat {x : UInt64} {k : ℕ} (hk : k < 64) :
    (x >>> UInt64.ofNat k).toNat = x.toNat / 2 ^ k := by
  rw [UInt64.toNat_shiftRight, toNat_ofNat_mod hk, Nat.shiftRight_eq_div_pow]

/-- The middle and the low field together stay below the high one. -/
lemma Fits.mid_add_low_lt (h : l.Fits hi mid lo) :
    mid.toNat * 2 ^ l.low + lo.toNat < 2 ^ (l.mid + l.low) := by
  have hmid : (mid.toNat + 1) * 2 ^ l.low ≤ 2 ^ l.mid * 2 ^ l.low :=
    Nat.mul_le_mul_right _ h.mid
  rw [Nat.add_mul, one_mul, ← Nat.pow_add] at hmid
  have hlow := h.low
  omega

lemma Fits.high_mul_lt (h : l.Fits hi mid lo) :
    (hi.toNat + 1) * 2 ^ (l.mid + l.low) ≤ 2 ^ 64 := by
  have hword := l.lt_word
  calc (hi.toNat + 1) * 2 ^ (l.mid + l.low)
      ≤ 2 ^ (64 - (l.mid + l.low)) * 2 ^ (l.mid + l.low) := Nat.mul_le_mul_right _ h.high
    _ = 2 ^ 64 := by
        rw [← Nat.pow_add]
        congr 1
        omega

/-- The word is the sum of its fields at their places. -/
lemma toNat_pack (h : l.Fits hi mid lo) :
    (l.pack hi mid lo).toNat =
      hi.toNat * 2 ^ (l.mid + l.low) + (mid.toNat * 2 ^ l.low + lo.toNat) := by
  have hword := l.lt_word
  have hrest := h.mid_add_low_lt
  have hhigh := h.high_mul_lt
  rw [Nat.add_mul, one_mul] at hhigh
  have hmid : mid.toNat * 2 ^ l.low < 2 ^ 64 := by
    have hle : 2 ^ (l.mid + l.low) ≤ 2 ^ 64 := Nat.pow_le_pow_right (by decide) hword.le
    omega
  unfold pack
  rw [UInt64.toNat_or, UInt64.toNat_or, toNat_shiftLeft_of_lt hword (by omega),
    toNat_shiftLeft_of_lt (by omega) hmid, Nat.or_assoc, ← Nat.shiftLeft_eq mid.toNat,
    ← Nat.shiftLeft_add_eq_or_of_lt h.low, Nat.shiftLeft_eq, ← Nat.shiftLeft_eq hi.toNat,
    ← Nat.shiftLeft_add_eq_or_of_lt hrest, Nat.shiftLeft_eq]

lemma highOf_pack (h : l.Fits hi mid lo) : l.highOf (l.pack hi mid lo) = hi := by
  apply UInt64.toNat_inj.1
  unfold highOf
  rw [toNat_shiftRight_ofNat l.lt_word, toNat_pack h, Nat.add_comm,
    Nat.add_mul_div_right _ _ (Nat.two_pow_pos _), Nat.div_eq_of_lt h.mid_add_low_lt, Nat.zero_add]

lemma midOf_pack (h : l.Fits hi mid lo) : l.midOf (l.pack hi mid lo) = mid := by
  have hword := l.lt_word
  apply UInt64.toNat_inj.1
  unfold midOf
  rw [toNat_and_mask (by omega), toNat_shiftRight_ofNat (by omega), toNat_pack h]
  have hsum : hi.toNat * 2 ^ (l.mid + l.low) + (mid.toNat * 2 ^ l.low + lo.toNat) =
      lo.toNat + (mid.toNat + hi.toNat * 2 ^ l.mid) * 2 ^ l.low := by
    rw [Nat.pow_add]
    ring
  rw [hsum, Nat.add_mul_div_right _ _ (Nat.two_pow_pos _), Nat.div_eq_of_lt h.low, Nat.zero_add,
    Nat.add_mul_mod_self_right, Nat.mod_eq_of_lt h.mid]

lemma lowOf_pack (h : l.Fits hi mid lo) : l.lowOf (l.pack hi mid lo) = lo := by
  have hword := l.lt_word
  apply UInt64.toNat_inj.1
  unfold lowOf
  rw [toNat_and_mask (by omega), toNat_pack h]
  have hsum : hi.toNat * 2 ^ (l.mid + l.low) + (mid.toNat * 2 ^ l.low + lo.toNat) =
      lo.toNat + (mid.toNat + hi.toNat * 2 ^ l.mid) * 2 ^ l.low := by
    rw [Nat.pow_add]
    ring
  rw [hsum, Nat.add_mul_mod_self_right, Nat.mod_eq_of_lt h.low]

/-- With one value in the middle, words are ordered by the high field first and the low field
second. -/
lemma pack_lt_pack {hi' lo' : UInt64} (h : l.Fits hi mid lo) (h' : l.Fits hi' mid lo')
    (hlt : hi < hi' ∨ hi = hi' ∧ lo < lo') : l.pack hi mid lo < l.pack hi' mid lo' := by
  rw [UInt64.lt_iff_toNat_lt, toNat_pack h, toNat_pack h']
  obtain hlt | ⟨rfl, hlt⟩ := hlt
  · have hrest := h.mid_add_low_lt
    have hstep : (hi.toNat + 1) * 2 ^ (l.mid + l.low) ≤ hi'.toNat * 2 ^ (l.mid + l.low) :=
      Nat.mul_le_mul_right _ (UInt64.lt_iff_toNat_lt.1 hlt)
    rw [Nat.add_mul, one_mul] at hstep
    omega
  · have hlow := UInt64.lt_iff_toNat_lt.1 hlt
    omega

end FieldLayout

end ClientServer
