import Mathlib.Data.Nat.Digits.Lemmas

/-!
# Byte blocks and little-endian numbers

Packed wire structures are laid out in storage of a fixed size, and their integer fields
are little-endian.  This file supplies both: `Block n` is an array of exactly `n` bytes
with the two operations `memcpy` needs (`Block.write` into it, `Block.read` out of it), and
`leBytes`/`leValue` are the little-endian encoding of a natural number at a fixed width and
its inverse.

The lemma that later proofs run on is `take_overwrite`: reading a prefix that ends where the
last write ended peels that write off, so a structure filled field by field reads back as the
concatenation of its fields.  Nothing here refers to a particular message format.
-/

namespace ClientServer

/-- A run of bytes, as in `std::vector<char>`. -/
abbrev Bytes := List UInt8

/-- What a read into a buffer of `cap` bytes delivers: at least one byte, at most `cap`. -/
abbrev Chunk (cap : ℕ) := {bs : Bytes // 0 < bs.length ∧ bs.length ≤ cap}

/-! ## Writing into storage -/

/-- Replace the bytes of `mem` from offset `off` on by `bs`. -/
def overwrite (mem : Bytes) (off : ℕ) (bs : Bytes) : Bytes :=
  mem.take off ++ bs ++ mem.drop (off + bs.length)

lemma length_overwrite {mem bs : Bytes} {off : ℕ} (h : off + bs.length ≤ mem.length) :
    (overwrite mem off bs).length = mem.length := by
  simp only [overwrite, List.length_append, List.length_take, List.length_drop]
  omega

/-- A prefix that ends where the write ended is what stood before it, then the bytes written. -/
lemma take_overwrite {mem bs : Bytes} {off : ℕ} (h : off + bs.length ≤ mem.length) :
    (overwrite mem off bs).take (off + bs.length) = mem.take off ++ bs := by
  have hlen : (mem.take off ++ bs).length = off + bs.length := by
    simp only [List.length_append, List.length_take]
    omega
  rw [overwrite, ← hlen, List.take_left']
  rfl

/-- Writing at the start changes nothing exactly if the bytes are there already. -/
lemma overwrite_zero_eq_iff {mem bs : Bytes} : overwrite mem 0 bs = mem ↔ bs <+: mem := by
  rw [overwrite, List.take_zero, List.nil_append, Nat.zero_add]
  constructor
  · exact fun h => ⟨_, h⟩
  · rintro ⟨rest, rfl⟩
    rw [List.drop_left']
    rfl

/-- An array of exactly `n` bytes. -/
abbrev Block (n : ℕ) := {bs : Bytes // bs.length = n}

namespace Block

variable {n : ℕ}

/-- `memcpy` of `bs` into the block at offset `off`. -/
def write (b : Block n) (off : ℕ) (bs : Bytes) (h : off + bs.length ≤ n) : Block n :=
  ⟨overwrite b.1 off bs, by rw [length_overwrite (by rw [b.2]; exact h), b.2]⟩

/-- `memcpy` of `len` bytes at offset `off` out of the block. -/
def read (b : Block n) (off len : ℕ) (h : off + len ≤ n) : Block len :=
  ⟨(b.1.drop off).take len, by
    rw [List.length_take, List.length_drop, b.2]
    omega⟩

/-- A field written up to `stop` reads back as the end of the first `stop` bytes. -/
lemma take_write (b : Block n) {off stop : ℕ} {bs : Bytes} (h : off + bs.length ≤ n)
    (hstop : off + bs.length = stop) : (b.write off bs h).1.take stop = b.1.take off ++ bs := by
  subst hstop
  exact take_overwrite (by rw [b.2]; exact h)

/-- What was copied to the start of a block is read back from there. -/
lemma read_write_zero (b : Block n) {k : ℕ} (bs : Block k) (h : 0 + bs.1.length ≤ n)
    (hk : 0 + k ≤ n) : (b.write 0 bs.1 h).read 0 k hk = bs := by
  apply Subtype.ext
  simp only [read, write, overwrite, List.take_zero, List.nil_append, List.drop_zero]
  exact List.take_left' bs.2

/-- One byte of the block. -/
def get (b : Block n) (i : Fin n) : UInt8 := b.1.get (i.cast b.2.symm)

/-- Another byte at one place of the block. -/
def set (b : Block n) (i : Fin n) (x : UInt8) : Block n :=
  ⟨b.1.set i x, by rw [List.length_set, b.2]⟩

@[simp] lemma get_set_self (b : Block n) (i : Fin n) (x : UInt8) : (b.set i x).get i = x := by
  rw [get, List.get_eq_getElem]
  exact List.getElem_set_self _

@[simp] lemma get_set_of_ne (b : Block n) {i j : Fin n} (x : UInt8) (h : i ≠ j) :
    (b.set i x).get j = b.get j := by
  rw [get, List.get_eq_getElem]
  exact List.getElem_set_ne (fun hval => h (Fin.ext hval)) _

/-- The byte that is there already. -/
lemma set_get_self (b : Block n) (i : Fin n) : b.set i (b.get i) = b := by
  apply Subtype.ext
  simp only [get, set, List.get_eq_getElem, Fin.val_cast, List.set_getElem_self]

end Block

/-! ## Little-endian numbers -/

/-- The `w` low-order base-256 digits of `n`, least significant first. -/
def leBytes : ℕ → ℕ → Bytes
  | 0, _ => []
  | w + 1, n => UInt8.ofNat n :: leBytes w (n / 256)

/-- The number a little-endian run of bytes denotes. -/
def leValue (bs : Bytes) : ℕ := Nat.ofDigits 256 (bs.map UInt8.toNat)

@[simp] lemma leValue_singleton (b : UInt8) : leValue [b] = b.toNat := by
  simp [leValue]

lemma leValue_lt (bs : Bytes) : leValue bs < 256 ^ bs.length := by
  have h : Nat.ofDigits 256 (bs.map UInt8.toNat) < 256 ^ (bs.map UInt8.toNat).length := by
    refine Nat.ofDigits_lt_base_pow_length (by decide) fun d hd => ?_
    obtain ⟨b, -, rfl⟩ := List.mem_map.mp hd
    exact b.toNat_lt
  rwa [List.length_map] at h

@[simp] lemma length_leBytes (w n : ℕ) : (leBytes w n).length = w := by
  induction w generalizing n with
  | zero => rfl
  | succ w ih => rw [leBytes, List.length_cons, ih]

/-- Decoding a fixed-width encoding keeps the value modulo the width. -/
lemma leValue_leBytes (w n : ℕ) : leValue (leBytes w n) = n % 256 ^ w := by
  induction w generalizing n with
  | zero => simp [leBytes, leValue, Nat.mod_one]
  | succ w ih =>
    have hdigit : (UInt8.ofNat n).toNat = n % 256 := by simp
    have htail := ih (n / 256)
    rw [leValue] at htail
    rw [leBytes, leValue, List.map_cons, Nat.ofDigits_cons, hdigit, htail, pow_succ',
      Nat.mod_mul]

/-- Numbers that fit the width are told apart by their bytes. -/
lemma eq_of_leBytes_eq {w m n : ℕ} (hm : m < 256 ^ w) (hn : n < 256 ^ w)
    (h : leBytes w m = leBytes w n) : m = n := by
  have hvalue := congrArg leValue h
  rwa [leValue_leBytes, leValue_leBytes, Nat.mod_eq_of_lt hm, Nat.mod_eq_of_lt hn] at hvalue

/-- The bytes of the number that bytes denote are these bytes. -/
lemma leBytes_leValue (bs : Bytes) : leBytes bs.length (leValue bs) = bs := by
  induction bs with
  | nil => rfl
  | cons b bs ih =>
    have hvalue : leValue (b :: bs) = b.toNat + 256 * leValue bs := by
      rw [leValue, List.map_cons, Nat.ofDigits_cons]
      rfl
    have hfirst : UInt8.ofNat (b.toNat + 256 * leValue bs) = b := by
      apply UInt8.toNat_inj.mp
      rw [UInt8.toNat_ofNat', Nat.add_mul_mod_self_left, Nat.mod_eq_of_lt b.toNat_lt]
    have hrest : (b.toNat + 256 * leValue bs) / 256 = leValue bs := by
      rw [Nat.add_mul_div_left _ _ (by decide), Nat.div_eq_of_lt b.toNat_lt, Nat.zero_add]
    rw [List.length_cons, leBytes, hvalue, hfirst, hrest, ih]

end ClientServer
