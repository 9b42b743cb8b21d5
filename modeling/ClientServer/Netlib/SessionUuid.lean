import ClientServer.Library.Bytes
import ClientServer.Library.BitFields
import Mathlib.Logic.Function.Iterate

/-!
# `netlib/utils.cpp`: the uuid of a session

`generateUuid` draws 128 bits from a generator that is static and constructed without a seed: the
`std::random_device` beside it is never asked.  So the uuids of every process are those of the
default seed (`uuids_eq`), and what the bits of version and variant leave of them does not matter.

`read_session_uuid` reads up to 16 bytes of the file into the caller's array and then validates
what is there.  It does not see that the file goes on, and the array has changed when it refuses.
-/

namespace ClientServer.Netlib

namespace SessionUuid

/-! ## `generateUuid` -/

/-- What the distribution makes of `std::mt19937_64`: the numbers that come from a seed. -/
abbrev Stream := UInt64 → ℕ → UInt64

/-- A generator: its seed and how many numbers were drawn. -/
structure Engine where
  seed : UInt64
  drawn : ℕ

/-- `std::mt19937_64::default_seed`. -/
def defaultSeed : UInt64 := 5489

/-- The static variables of `generateUuid`; of `rd` what it would return. -/
structure Statics where
  rd : UInt32
  gen : Engine

/-- The variables of a process at the first call. -/
def Statics.new (device : UInt32) : Statics := ⟨device, ⟨defaultSeed, 0⟩⟩

/-- `dis(gen)`. -/
def dis (stream : Stream) (gen : Engine) : UInt64 × Engine :=
  (stream gen.seed gen.drawn, { gen with drawn := gen.drawn + 1 })

/-- The uuid of 128 random bits. -/
def ofParts (part1 part2 : UInt64) : Block 16 :=
  let uuid : Block 16 := ⟨leBytes 8 part1.toNat ++ leBytes 8 part2.toNat, by simp⟩
  let uuid := uuid.set 6 ((uuid.get 6 &&& 0x0F) ||| 0x40)
  uuid.set 8 ((uuid.get 8 &&& 0x3F) ||| 0x80)

/-- `generateUuid`. -/
def generateUuid (stream : Stream) (s : Statics) : Block 16 × Statics :=
  let (part1, gen) := dis stream s.gen
  let (part2, gen) := dis stream gen
  (ofParts part1 part2, { s with gen := gen })

/-- What the `i`-th call returns in a process where `rd` would return `device`. -/
def uuids (stream : Stream) (device : UInt32) (i : ℕ) : Block 16 :=
  (generateUuid stream ((fun s => (generateUuid stream s).2)^[i] (Statics.new device))).1

/-- The uuids that a seed gives. -/
def ofSeed (stream : Stream) (seed : UInt64) (i : ℕ) : Block 16 :=
  ofParts (stream seed (2 * i)) (stream seed (2 * i + 1))

/-- Different seeds never give the same uuid. -/
def SeedsDiffer (stream : Stream) : Prop :=
  ∀ seed seed', seed ≠ seed' → ∀ i j, ofSeed stream seed i ≠ ofSeed stream seed' j

/-- Two processes never generate the same uuid. -/
def ProcessesDiffer (stream : Stream) (device device' : UInt32) : Prop :=
  ∀ i j, uuids stream device i ≠ uuids stream device' j

lemma statics_iterate (stream : Stream) (device : UInt32) (i : ℕ) :
    (fun s => (generateUuid stream s).2)^[i] (Statics.new device) =
      ⟨device, ⟨defaultSeed, 2 * i⟩⟩ := by
  induction i with
  | zero => rfl
  | succ i ih =>
    rw [Function.iterate_succ_apply', ih]
    rfl

/-- The uuids of a process are those of the default seed. -/
lemma uuids_eq (stream : Stream) (device : UInt32) (i : ℕ) :
    uuids stream device i = ofSeed stream defaultSeed i := by
  rw [uuids, statics_iterate]
  rfl

/-- **Two processes never get different uuids.**  However the generator works and whatever their
devices return, they start with the same one. -/
theorem not_processesDiffer (stream : Stream) (device device' : UInt32) :
    ¬ ProcessesDiffer stream device device' := by
  intro hdiffer
  refine hdiffer 0 0 ?_
  rw [uuids_eq, uuids_eq]

/-- Outside of the two masked bytes stand the bytes of the parts. -/
lemma getElem?_ofParts (part1 part2 : UInt64) {k : ℕ} (h6 : 6 ≠ k) (h8 : 8 ≠ k) :
    (ofParts part1 part2).1[k]? =
      (leBytes 8 part1.toNat ++ leBytes 8 part2.toNat)[k]? := by
  simp only [ofParts, Block.set]
  exact (List.getElem?_set_ne h8).trans (List.getElem?_set_ne h6)

/-- Where one number is drawn twice, each of its bytes stands outside of the masks in one of the
parts. -/
lemma seedsDiffer_repeat : SeedsDiffer fun seed _ => seed := by
  intro seed seed' hne i j heq
  have hbyte : ∀ {k}, 6 ≠ k → 8 ≠ k →
      (leBytes 8 seed.toNat ++ leBytes 8 seed.toNat)[k]? =
        (leBytes 8 seed'.toNat ++ leBytes 8 seed'.toNat)[k]? := fun {k} h6 h8 => by
    rw [← getElem?_ofParts _ _ h6 h8, ← getElem?_ofParts _ _ h6 h8]
    exact congrArg (fun uuid : Block 16 => uuid.1[k]?) heq
  have hbytes : leBytes 8 seed.toNat = leBytes 8 seed'.toNat := by
    apply List.ext_getElem?
    intro k
    rcases lt_or_ge k 8 with hk | hk
    · by_cases h6 : 6 = k
      · -- the sixth byte has lost its upper half in the first part
        subst h6
        have hsecond := @hbyte 14 (by decide) (by decide)
        rwa [List.getElem?_append_right (by simp), List.getElem?_append_right (by simp),
          length_leBytes, length_leBytes] at hsecond
      · have hfirst := hbyte h6 hk.ne'
        rwa [List.getElem?_append_left (by simpa using hk),
          List.getElem?_append_left (by simpa using hk)] at hfirst
    · rw [List.getElem?_eq_none (by simpa using hk), List.getElem?_eq_none (by simpa using hk)]
  exact hne (UInt64.toNat_inj.mp (eq_of_leBytes_eq seed.toNat_lt seed'.toNat_lt hbytes))

/-- Two processes with different devices and a generator that tells seeds apart. -/
theorem not_processesDiffer_of_seedsDiffer :
    ¬ ∀ stream, SeedsDiffer stream → ∀ device device', device ≠ device' →
      ProcessesDiffer stream device device' := by
  intro hall
  refine hall (fun seed _ => seed) seedsDiffer_repeat 0 1 (by decide) 0 0 ?_
  rw [uuids_eq, uuids_eq]

/-! ## The file -/

/-- The files, by their names. -/
abbrev Files := String → Option Bytes

/-- `write_session_uuid`, where the file can be opened or not. -/
def writeSessionUuid (clientSessionUuid : Block 16) (filename : String) (isOpen : Bool)
    (files : Files) : Bool × Files :=
  if isOpen then (true, Function.update files filename (some clientSessionUuid.1))
  else (false, files)

/-- `version_ok`. -/
def versionOk (result : Block 16) : Bool := result.get 6 &&& 0xF0 == 0x40

/-- `variant_ok`. -/
def variantOk (result : Block 16) : Bool := result.get 8 &&& 0xC0 == 0x80

/-- `file.read` of up to 16 bytes into the array. -/
def readInto (file : Bytes) (result : Block 16) : Block 16 :=
  result.write 0 (file.take 16) (by
    rw [List.length_take]
    omega)

/-- `read_session_uuid`, with what the file has if it can be opened, and the array afterwards. -/
def readSessionUuid (file : Option Bytes) (result : Block 16) : Bool × Block 16 :=
  match file with
  | none => (false, result)
  | some bs =>
    let result := readInto bs result
    let validSize := (bs.take 16).length == 16
    if validSize then (versionOk result && variantOk result, result) else (false, result)

/-- A uuid that was written is read. -/
def RoundTrips (part1 part2 : UInt64) : Prop :=
  ∀ filename isOpen files result,
    let uuid := ofParts part1 part2
    (writeSessionUuid uuid filename isOpen files).1 = true →
      readSessionUuid ((writeSessionUuid uuid filename isOpen files).2 filename) result =
        (true, uuid)

/-- Only what `generateUuid` can produce is accepted, and the array is kept otherwise. -/
structure DecodesExactly (file : Option Bytes) (result : Block 16) : Prop where
  accepts : (readSessionUuid file result).1 = true →
    ∃ part1 part2, file = some (ofParts part1 part2).1
  keeps : (readSessionUuid file result).1 = false → (readSessionUuid file result).2 = result

/-- The file has 16 bytes or more, and those at its start have the version and the variant. -/
def StartsValid (bs : Bytes) : Prop :=
  ∃ uuid : Block 16, uuid.1 = bs.take 16 ∧ versionOk uuid = true ∧ variantOk uuid = true

/-- The file ends behind a valid start, and where the start is not valid, its bytes are those
that the array has already. -/
def Harmless (file : Option Bytes) (result : Block 16) : Prop :=
  ∀ bs, file = some bs →
    (StartsValid bs → bs.length = 16) ∧ (¬ StartsValid bs → bs.take 16 <+: result.1)

/-! ## What the bits say -/

lemma versionOk_ofParts (part1 part2 : UInt64) : versionOk (ofParts part1 part2) = true := by
  rw [versionOk, ofParts, Block.get_set_of_ne _ _ (by decide), Block.get_set_self, beq_iff_eq]
  exact tag_and_mask (by decide) (by decide)

lemma variantOk_ofParts (part1 part2 : UInt64) : variantOk (ofParts part1 part2) = true := by
  rw [variantOk, ofParts, Block.get_set_self, beq_iff_eq]
  exact tag_and_mask (by decide) (by decide)

/-- The eight bytes of a number of 64 bits. -/
lemma leBytes_ofNat_leValue {bs : Bytes} (h : bs.length = 8) :
    leBytes 8 (UInt64.ofNat (leValue bs)).toNat = bs := by
  have hlt : leValue bs < 2 ^ 64 := (leValue_lt bs).trans_eq (by rw [h]; rfl)
  have hbytes := leBytes_leValue bs
  rwa [UInt64.toNat_ofNat_of_lt' hlt, ← h]

/-- `generateUuid` can produce what has the version and the variant. -/
lemma exists_ofParts {uuid : Block 16} (hversion : versionOk uuid = true)
    (hvariant : variantOk uuid = true) : ∃ part1 part2, uuid = ofParts part1 part2 := by
  rw [versionOk, beq_iff_eq] at hversion
  rw [variantOk, beq_iff_eq] at hvariant
  refine ⟨UInt64.ofNat (leValue (uuid.1.take 8)), UInt64.ofNat (leValue (uuid.1.drop 8)), ?_⟩
  have hjoin : (⟨leBytes 8 (UInt64.ofNat (leValue (uuid.1.take 8))).toNat ++
      leBytes 8 (UInt64.ofNat (leValue (uuid.1.drop 8))).toNat, by simp⟩ : Block 16) = uuid := by
    apply Subtype.ext
    show leBytes 8 _ ++ leBytes 8 _ = uuid.1
    rw [leBytes_ofNat_leValue (by rw [List.length_take, uuid.2]; rfl),
      leBytes_ofNat_leValue (by rw [List.length_drop, uuid.2]), List.take_append_drop]
  rw [ofParts]
  simp only [hjoin]
  rw [tag_of_and_mask (by decide) hversion, Block.set_get_self,
    tag_of_and_mask (by decide) hvariant, Block.set_get_self]

/-! ## What is read -/

variable {bs : Bytes} {result : Block 16}

lemma readInto_of_le (h : 16 ≤ bs.length) : (readInto bs result).1 = bs.take 16 := by
  have hlen : (bs.take 16).length = 16 := List.length_take_of_le h
  show overwrite result.1 0 (bs.take 16) = _
  rw [overwrite, hlen, List.take_zero, List.nil_append,
    List.drop_eq_nil_of_le (by rw [result.2]), List.append_nil]

lemma readInto_eq_self_iff : readInto bs result = result ↔ bs.take 16 <+: result.1 := by
  rw [← overwrite_zero_eq_iff, Subtype.ext_iff]
  rfl

lemma readSessionUuid_snd : (readSessionUuid (some bs) result).2 = readInto bs result := by
  simp only [readSessionUuid]
  split <;> rfl

lemma readSessionUuid_fst (bs : Bytes) (result : Block 16) :
    (readSessionUuid (some bs) result).1 = true ↔ StartsValid bs := by
  rcases lt_or_ge bs.length 16 with hlt | hle
  · have hlen : (bs.take 16).length ≠ 16 := by
      rw [List.length_take]
      omega
    have hshort : ¬ StartsValid bs := by
      rintro ⟨uuid, huuid, -⟩
      exact hlen (huuid ▸ uuid.2)
    simp only [readSessionUuid, beq_iff_eq, hlen, if_false, Bool.false_eq_true, hshort]
  · have hlen : (bs.take 16).length = 16 := List.length_take_of_le hle
    simp only [readSessionUuid, hlen, beq_self_eq_true, if_true, Bool.and_eq_true]
    constructor
    · exact fun h => ⟨readInto bs result, readInto_of_le hle, h⟩
    · rintro ⟨uuid, huuid, h⟩
      have hsame : readInto bs result = uuid := Subtype.ext ((readInto_of_le hle).trans huuid.symm)
      rwa [hsame]

lemma roundTrips (part1 part2 : UInt64) : RoundTrips part1 part2 := by
  intro filename isOpen files result uuid hwritten
  have hle : 16 ≤ uuid.1.length := uuid.2.ge
  have htake : uuid.1.take 16 = uuid.1 := List.take_of_length_le uuid.2.le
  cases isOpen with
  | false => cases hwritten
  | true =>
    have hfile : (writeSessionUuid uuid filename true files).2 filename = some uuid.1 :=
      Function.update_self _ _ _
    rw [hfile]
    refine Prod.ext ?_ ?_
    · exact (readSessionUuid_fst _ _).mpr
        ⟨uuid, htake.symm, versionOk_ofParts part1 part2, variantOk_ofParts part1 part2⟩
    · rw [readSessionUuid_snd]
      exact Subtype.ext ((readInto_of_le hle).trans htake)

/-- A file with a valid start is one that `generateUuid` can produce if it ends there. -/
lemma StartsValid.producible_iff (h : StartsValid bs) :
    (∃ part1 part2, some bs = some (ofParts part1 part2).1) ↔ bs.length = 16 := by
  constructor
  · rintro ⟨part1, part2, heq⟩
    cases heq
    exact (ofParts part1 part2).2
  · intro hlen
    obtain ⟨uuid, huuid, hversion, hvariant⟩ := h
    obtain ⟨part1, part2, rfl⟩ := exists_ofParts hversion hvariant
    rw [List.take_of_length_le hlen.le] at huuid
    exact ⟨part1, part2, congrArg some huuid.symm⟩

lemma decodesExactly_some_iff : DecodesExactly (some bs) result ↔
    (StartsValid bs → bs.length = 16) ∧ (¬ StartsValid bs → bs.take 16 <+: result.1) := by
  have hrejects : (readSessionUuid (some bs) result).1 = false ↔ ¬ StartsValid bs := by
    rw [← readSessionUuid_fst bs result, Bool.not_eq_true]
  constructor
  · rintro ⟨haccepts, hkeeps⟩
    refine ⟨fun hvalid => hvalid.producible_iff.mp (haccepts ?_), fun hinvalid => ?_⟩
    · exact (readSessionUuid_fst _ _).mpr hvalid
    · rw [← readInto_eq_self_iff, ← readSessionUuid_snd]
      exact hkeeps (hrejects.mpr hinvalid)
  · rintro ⟨haccepts, hkeeps⟩
    refine ⟨fun hread => ?_, fun hread => ?_⟩
    · have hvalid := (readSessionUuid_fst _ _).mp hread
      exact hvalid.producible_iff.mpr (haccepts hvalid)
    · rw [readSessionUuid_snd, readInto_eq_self_iff]
      exact hkeeps (hrejects.mp hread)

/-- **When the file of a uuid is decoded exactly.**  What was written is always read; a file is
decoded exactly, and the array kept otherwise, exactly if the file does no harm. -/
theorem decodesExactly_iff (part1 part2 : UInt64) (file : Option Bytes) (result : Block 16) :
    RoundTrips part1 part2 ∧ DecodesExactly file result ↔ Harmless file result := by
  rw [and_iff_right (roundTrips part1 part2)]
  cases file with
  | none =>
    refine iff_of_true ⟨fun h => absurd h Bool.false_ne_true, fun _ => rfl⟩ ?_
    exact fun _ h => absurd h (Option.some_ne_none _).symm
  | some bs =>
    rw [decodesExactly_some_iff, Harmless]
    exact ⟨fun h _ hbs => Option.some_inj.mp hbs ▸ h, fun h => h bs rfl⟩

/-- A file of 17 bytes whose first 16 are valid is accepted, and a file of one byte changes the
array. -/
theorem not_decodesExactly_overlong :
    (¬ ∀ file result, DecodesExactly file result) ∧
      ¬ DecodesExactly (some [1]) ⟨List.replicate 16 0, rfl⟩ := by
  constructor
  · intro hall
    obtain ⟨part1, part2, heq⟩ :=
      (hall (some ([0, 0, 0, 0, 0, 0, 0x40, 0, 0x80] ++ List.replicate 8 0))
        ⟨List.replicate 16 0, rfl⟩).accepts (by decide)
    have hlen := (ofParts part1 part2).2
    rw [← Option.some_inj.mp heq] at hlen
    exact absurd hlen (by decide)
  · intro hdecodes
    exact absurd (hdecodes.keeps (by decide)) (by decide)

end SessionUuid

end ClientServer.Netlib
