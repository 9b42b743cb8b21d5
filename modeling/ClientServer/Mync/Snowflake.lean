import ClientServer.Library.BitFields
import ClientServer.Library.Issuing

/-!
# `mync/snowflakeidgen.h`: the class `SnowflakeGenerator`

A call of `next_id` holds the mutex from its start to its end, so a run is a sequence of calls
in the order in which the threads get it.  A call is given the readings of the system clock that
it sees, in order; it returns when its loops have found what they wait for.
-/

namespace ClientServer.Mync

/-! ## The constants -/

/-- `EPOCH_START_MS`. -/
def epochStartMs : UInt64 := 1735689600000

/-- `WORKER_ID`. -/
def workerId : UInt64 := 42

/-- `SEQUENCE_BITS`. -/
abbrev sequenceBits : ℕ := 13

/-- `WORKER_ID_BITS`. -/
abbrev workerIdBits : ℕ := 10

/-- `MAX_SEQUENCE`. -/
def maxSequence : UInt64 := (1 <<< UInt64.ofNat sequenceBits) - 1

/-- `WORKER_ID_SHIFT`. -/
def workerIdShift : UInt64 := UInt64.ofNat sequenceBits

/-- `TIMESTAMP_SHIFT`. -/
def timestampShift : UInt64 := UInt64.ofNat (workerIdBits + sequenceBits)

/-- The layout of an ID. -/
def snowflakeLayout : FieldLayout where
  mid := workerIdBits
  low := sequenceBits
  lt_word := by decide

/-- A reading of the clock, in milliseconds, within the 41 bits that the layout has for it. -/
structure ClockReading where
  ms : UInt64
  epoch_le : epochStartMs ≤ ms
  lt_epoch_add : ms.toNat < epochStartMs.toNat + 2 ^ 41

/-! ## The generator -/

/-- The fields of class `SnowflakeGenerator`. -/
structure SnowflakeGenerator where
  lastTimestampMs : UInt64
  sequence : UInt64
  deriving DecidableEq

namespace SnowflakeGenerator

/-- A new generator. -/
def new : SnowflakeGenerator := ⟨0, 0⟩

/-- `SnowflakeGenerator::wait_for_next_ms`: the first reading after `lastTs`; none where the
readings end before. -/
def waitForNextMs (lastTs : UInt64) : List ClockReading → Option UInt64
  | [] => none
  | timestamp :: readings =>
    if timestamp.ms ≤ lastTs then waitForNextMs lastTs readings else some timestamp.ms

/-- The last statements of `next_id`. -/
def assemble (g : SnowflakeGenerator) : UInt64 :=
  ((g.lastTimestampMs - epochStartMs) <<< timestampShift) |||
    (workerId <<< workerIdShift) ||| g.sequence

/-- `SnowflakeGenerator::next_id`: the ID, or the text it throws; none where the call does not
return with these readings. -/
def nextId (g : SnowflakeGenerator) :
    List ClockReading → Option (SnowflakeGenerator × Except String UInt64)
  | [] => none
  | timestamp :: readings =>
    if timestamp.ms < g.lastTimestampMs then
      some (g, .error ("Clock moved backwards. Refusing to generate ID for " ++
        toString (g.lastTimestampMs - timestamp.ms) ++ "ms"))
    else if timestamp.ms = g.lastTimestampMs then
      let sequence := (g.sequence + 1) &&& maxSequence
      if sequence = 0 then
        (waitForNextMs g.lastTimestampMs readings).map fun next =>
          let g' : SnowflakeGenerator := ⟨next, sequence⟩
          (g', .ok g'.assemble)
      else
        let g' : SnowflakeGenerator := ⟨timestamp.ms, sequence⟩
        some (g', .ok g'.assemble)
    else
      let g' : SnowflakeGenerator := ⟨timestamp.ms, 0⟩
      some (g', .ok g'.assemble)

/-- A call as a step that may hand out an ID. -/
def call (g : SnowflakeGenerator) (readings : List ClockReading) :
    Option (SnowflakeGenerator × Option UInt64) :=
  (g.nextId readings).map fun result => (result.1, result.2.toOption)

/-- The IDs of the successful calls, in their order. -/
def ids (calls : List (List ClockReading)) : List UInt64 := issued call new calls

/-- The shifts and masks give back the time, the worker and the sequence. -/
def DecodesTo (id : UInt64) (g : SnowflakeGenerator) : Prop :=
  (id >>> timestampShift) + epochStartMs = g.lastTimestampMs ∧
    (id >>> workerIdShift) &&& UInt64.ofNat (2 ^ workerIdBits - 1) = workerId ∧
    id &&& maxSequence = g.sequence ∧ g.sequence ≤ maxSequence

/-- What one call does: its ID decodes to the state it leaves, and a call that throws leaves the
state as it was. -/
def CallSound (g : SnowflakeGenerator) (readings : List ClockReading) : Prop :=
  ∀ g' result, g.nextId readings = some (g', result) →
    match result with
    | .ok id => DecodesTo id g'
    | .error _ => g' = g

/-! ## One call -/

variable {g g' : SnowflakeGenerator} {readings : List ClockReading}

lemma waitForNextMs_eq_some {lastTs next : UInt64} (h : waitForNextMs lastTs readings = some next) :
    lastTs < next ∧ ∃ t : ClockReading, next = t.ms := by
  induction readings with
  | nil => cases h
  | cons timestamp readings ih =>
    unfold waitForNextMs at h
    split_ifs at h with hle
    · exact ih h
    · cases h
      exact ⟨UInt64.not_le.1 hle, timestamp, rfl⟩

/-- A call throws and changes nothing, or it hands out the ID of the state it leaves: in a later
millisecond with sequence `0`, or in the same one with the next sequence. -/
lemma nextId_cases {result : Except String UInt64}
    (h : g.nextId readings = some (g', result)) :
    (∃ text, result = .error text) ∧ g' = g ∨
      result = .ok g'.assemble ∧ (∃ t : ClockReading, g'.lastTimestampMs = t.ms) ∧
        (g.lastTimestampMs < g'.lastTimestampMs ∧ g'.sequence = 0 ∨
          g'.lastTimestampMs = g.lastTimestampMs ∧ g'.sequence ≠ 0 ∧
            g'.sequence = (g.sequence + 1) &&& maxSequence) := by
  cases readings with
  | nil => cases h
  | cons timestamp readings =>
    simp only [nextId] at h
    by_cases hback : timestamp.ms < g.lastTimestampMs
    · rw [if_pos hback] at h
      cases h
      exact Or.inl ⟨⟨_, rfl⟩, rfl⟩
    rw [if_neg hback] at h
    by_cases hsame : timestamp.ms = g.lastTimestampMs
    · rw [if_pos hsame] at h
      by_cases hwrap : (g.sequence + 1) &&& maxSequence = 0
      · simp only [if_pos hwrap] at h
        obtain ⟨next, hnext, heq⟩ := Option.map_eq_some_iff.1 h
        cases heq
        obtain ⟨hlater, t, rfl⟩ := waitForNextMs_eq_some hnext
        exact Or.inr ⟨rfl, ⟨t, rfl⟩, Or.inl ⟨hlater, hwrap⟩⟩
      · simp only [if_neg hwrap] at h
        cases h
        exact Or.inr ⟨rfl, ⟨timestamp, rfl⟩, Or.inr ⟨hsame, hwrap, rfl⟩⟩
    · rw [if_neg hsame] at h
      cases h
      refine Or.inr ⟨rfl, ⟨timestamp, rfl⟩, Or.inl ⟨?_, rfl⟩⟩
      exact UInt64.lt_of_le_of_ne (UInt64.not_lt.1 hback) (Ne.symm hsame)

/-- The sequence stays within its field. -/
def Bounded (g : SnowflakeGenerator) : Prop := g.sequence.toNat < 2 ^ sequenceBits

lemma maxSequence_eq : maxSequence = UInt64.ofNat (2 ^ sequenceBits - 1) := by decide

lemma toNat_masked (x : UInt64) : (x &&& maxSequence).toNat = x.toNat % 2 ^ sequenceBits := by
  rw [maxSequence_eq, FieldLayout.toNat_and_mask (by decide)]

lemma bounded_nextId {result : Except String UInt64} (hg : g.Bounded)
    (h : g.nextId readings = some (g', result)) : g'.Bounded := by
  obtain ⟨-, rfl⟩ | ⟨-, -, ⟨-, hzero⟩ | ⟨-, -, hseq⟩⟩ := nextId_cases h
  · exact hg
  · unfold Bounded
    rw [hzero]
    decide
  · unfold Bounded
    rw [hseq, toNat_masked]
    exact Nat.mod_lt _ (by decide)

/-- The fields of an ID do not overlap. -/
lemma fits (hg : g.Bounded) (ht : ∃ t : ClockReading, g.lastTimestampMs = t.ms) :
    snowflakeLayout.Fits (g.lastTimestampMs - epochStartMs) workerId g.sequence := by
  obtain ⟨t, ht⟩ := ht
  refine ⟨?_, by decide, hg⟩
  rw [ht, UInt64.toNat_sub_of_le _ _ t.epoch_le]
  show t.ms.toNat - epochStartMs.toNat < 2 ^ 41
  have hlt := t.lt_epoch_add
  omega

lemma assemble_eq_pack (g : SnowflakeGenerator) :
    g.assemble = snowflakeLayout.pack (g.lastTimestampMs - epochStartMs) workerId g.sequence :=
  rfl

lemma decodesTo_assemble (hg : g.Bounded) (ht : ∃ t : ClockReading, g.lastTimestampMs = t.ms) :
    DecodesTo g.assemble g := by
  have hfits := fits hg ht
  rw [assemble_eq_pack]
  refine ⟨?_, FieldLayout.midOf_pack hfits, maxSequence_eq ▸ FieldLayout.lowOf_pack hfits, ?_⟩
  · have hhigh := FieldLayout.highOf_pack hfits
    unfold FieldLayout.highOf at hhigh
    rw [show timestampShift = UInt64.ofNat (snowflakeLayout.mid + snowflakeLayout.low) from rfl,
      hhigh, UInt64.sub_add_cancel]
  · rw [UInt64.le_iff_toNat_le, maxSequence_eq]
    exact Nat.le_of_lt_succ hg

/-! ## Runs -/

/-- Time and sequence as one number; it is what an ID shows, up to the epoch and the worker. -/
def rank (g : SnowflakeGenerator) : ℕ := g.lastTimestampMs.toNat * 2 ^ 23 + g.sequence.toNat

/-- The number that an ID shows. -/
def shown (id : UInt64) : ℕ := id.toNat + (epochStartMs.toNat * 2 ^ 23 - 42 * 2 ^ 13)

lemma shown_assemble (hg : g.Bounded) (ht : ∃ t : ClockReading, g.lastTimestampMs = t.ms) :
    shown g.assemble = g.rank := by
  have hpack := FieldLayout.toNat_pack (fits hg ht)
  rw [← assemble_eq_pack] at hpack
  obtain ⟨t, ht⟩ := ht
  have hle := UInt64.le_iff_toNat_le.1 t.epoch_le
  rw [ht, UInt64.toNat_sub_of_le _ _ t.epoch_le] at hpack
  unfold shown rank
  rw [hpack, ht]
  show (t.ms.toNat - 1735689600000) * 2 ^ 23 + (42 * 2 ^ 13 + g.sequence.toNat) +
    (1735689600000 * 2 ^ 23 - 42 * 2 ^ 13) = t.ms.toNat * 2 ^ 23 + g.sequence.toNat
  have hle' : 1735689600000 ≤ t.ms.toNat := hle
  omega

/-- A successful call raises the rank. -/
lemma rank_lt_of_ok (hg : g.Bounded) (h : g.lastTimestampMs < g'.lastTimestampMs ∧ g'.sequence = 0 ∨
    g'.lastTimestampMs = g.lastTimestampMs ∧ g'.sequence ≠ 0 ∧
      g'.sequence = (g.sequence + 1) &&& maxSequence) : g.rank < g'.rank := by
  have hseq : g.sequence.toNat < 2 ^ 13 := hg
  unfold rank
  obtain ⟨hlater, -⟩ | ⟨hsame, hwrap, hnext⟩ := h
  · have hlt := UInt64.lt_iff_toNat_lt.1 hlater
    omega
  · have hmod : g'.sequence.toNat = (g.sequence.toNat + 1) % 2 ^ 64 % 2 ^ 13 := by
      rw [hnext, toNat_masked, UInt64.toNat_add]
      rfl
    have hne : g'.sequence.toNat ≠ 0 := fun hzero => hwrap (UInt64.toNat_inj.1 hzero)
    rw [hsame]
    omega

lemma call_eq_some {out : Option UInt64} (h : call g readings = some (g', out)) :
    ∃ result, g.nextId readings = some (g', result) ∧ out = result.toOption := by
  obtain ⟨⟨g₁, result⟩, hnext, heq⟩ := Option.map_eq_some_iff.1 h
  cases heq
  exact ⟨result, hnext, rfl⟩

/-- What a call does to the rank, and to the number shown by its ID. -/
lemma call_rank {out : Option UInt64} (hg : g.Bounded) (h : call g readings = some (g', out)) :
    g'.Bounded ∧ g.rank ≤ g'.rank ∧ ∀ id ∈ out, g.rank < shown id ∧ shown id ≤ g'.rank := by
  obtain ⟨result, hnext, rfl⟩ := call_eq_some h
  have hg' := bounded_nextId hg hnext
  obtain ⟨⟨text, rfl⟩, rfl⟩ | ⟨rfl, ht, hgoes⟩ := nextId_cases hnext
  · exact ⟨hg', le_rfl, fun id hid => by cases hid⟩
  · have hlt := rank_lt_of_ok hg hgoes
    refine ⟨hg', hlt.le, fun id hid => ?_⟩
    obtain rfl : g'.assemble = id := Option.some.inj hid
    rw [shown_assemble hg' ht]
    exact ⟨hlt, le_rfl⟩

lemma callSound_of_bounded (hg : g.Bounded) : g.CallSound readings := by
  intro g' result hnext
  obtain ⟨⟨text, rfl⟩, rfl⟩ | ⟨rfl, ht, -⟩ := nextId_cases hnext
  · rfl
  · exact decodesTo_assemble (bounded_nextId hg hnext) ht

lemma preserves_bounded : Preserves (afterCall call) (fun _ _ => True) Bounded := by
  intro g readings g' hg _ hstep
  obtain ⟨out, hcall⟩ := map_fst_eq_some.1 hstep
  exact (call_rank hg hcall).1

/-- **IDs rise.**  For any calls in any order, with any readings of the clock, the IDs of the
successful calls are strictly increasing; each decodes to the time, the worker and the sequence,
and a call that throws changes nothing. -/
theorem ids_increasing (calls : List (List ClockReading)) :
    (ids calls).Pairwise (· < ·) ∧ Along (afterCall call) CallSound new calls := by
  have hnew : new.Bounded := Nat.two_pow_pos sequenceBits
  have halways : Along (afterCall call) (fun _ _ => True) new calls :=
    along_of_forall (fun _ _ => trivial) _ _
  constructor
  · have hpair := (issued_pairwise_lt rank shown
      (fun _ _ _ _ hg _ hcall => call_rank hg hcall) hnew halways).1
    exact hpair.imp fun hlt => UInt64.lt_iff_toNat_lt.2 (Nat.lt_of_add_lt_add_right hlt)
  · exact preserves_bounded.along (fun _ _ _ hg _ _ => callSound_of_bounded hg) hnew halways

end SnowflakeGenerator

end ClientServer.Mync
