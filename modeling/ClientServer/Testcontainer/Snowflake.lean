import ClientServer.Library.BitFields
import ClientServer.Library.Issuing

/-!
# `testcontainer/main.cpp`: the class `SnowflakeIDGenerator`

As in the other generator a call of `next_id` holds the mutex from its start to its end, and is
given the readings of the system clock that it sees, in order.  The loop in which a call with a
full sequence waits tests `==`, so that it also ends when the clock steps back.
-/

namespace ClientServer.Testcontainer

/-! ## The generator -/

/-- `CUSTOM_EPOCH`. -/
def customEpoch : UInt64 := 1672531200000

/-- `WORKER_ID`. -/
def workerId : UInt64 := 1

/-- The layout of an ID: 10 bits for the worker over 12 for the sequence. -/
def idLayout : FieldLayout where
  mid := 10
  low := 12
  lt_word := by decide

/-- A reading of the clock, in milliseconds, within the 42 bits that the layout has for it. -/
structure ClockReading where
  ms : UInt64
  epoch_le : customEpoch ≤ ms
  lt_epoch_add : ms.toNat < customEpoch.toNat + 2 ^ 42

/-- `SnowflakeIDGenerator::get_current_timestamp`. -/
def ClockReading.timestamp (r : ClockReading) : UInt64 := r.ms - customEpoch

/-- The fields of class `SnowflakeIDGenerator`. -/
structure SnowflakeIDGenerator where
  lastTimestamp : UInt64
  sequence : UInt64
  deriving DecidableEq

namespace SnowflakeIDGenerator

/-- A new generator. -/
def new : SnowflakeIDGenerator := ⟨0, 0⟩

/-- The loop `while (timestamp == last_timestamp_)`; none where the readings end before it. -/
def waitLoop (lastTimestamp : UInt64) : UInt64 → List ClockReading → Option UInt64
  | timestamp, [] => if timestamp = lastTimestamp then none else some timestamp
  | timestamp, r :: readings =>
    if timestamp = lastTimestamp then waitLoop lastTimestamp r.timestamp readings
    else some timestamp

/-- The last statement of `next_id`. -/
def assemble (g : SnowflakeIDGenerator) : UInt64 :=
  (g.lastTimestamp <<< 22) ||| (workerId <<< 12) ||| g.sequence

/-- `SnowflakeIDGenerator::next_id`: the ID, or the text it throws; none where the call does not
return with these readings. -/
def nextId (g : SnowflakeIDGenerator) :
    List ClockReading → Option (SnowflakeIDGenerator × Except String UInt64)
  | [] => none
  | r :: readings =>
    let timestamp := r.timestamp
    if timestamp < g.lastTimestamp then some (g, .error "Clock moved backwards.")
    else if timestamp = g.lastTimestamp then
      let sequence := (g.sequence + 1) &&& 0xFFF
      if sequence = 0 then
        (waitLoop g.lastTimestamp timestamp readings).map fun next =>
          let g' : SnowflakeIDGenerator := ⟨next, sequence⟩
          (g', .ok g'.assemble)
      else
        let g' : SnowflakeIDGenerator := ⟨timestamp, sequence⟩
        some (g', .ok g'.assemble)
    else
      let g' : SnowflakeIDGenerator := ⟨timestamp, 0⟩
      some (g', .ok g'.assemble)

/-- A call as a step that may hand out an ID. -/
def call (g : SnowflakeIDGenerator) (readings : List ClockReading) :
    Option (SnowflakeIDGenerator × Option UInt64) :=
  (g.nextId readings).map fun result => (result.1, result.2.toOption)

/-- The IDs of the successful calls, in their order. -/
def ids (calls : List (List ClockReading)) : List UInt64 := issued call new calls

/-- The call does not take `last_timestamp_` back. -/
def KeepsTime (g : SnowflakeIDGenerator) (readings : List ClockReading) : Prop :=
  ∀ g' result, g.nextId readings = some (g', result) → g.lastTimestamp ≤ g'.lastTimestamp

/-- The call finds the millisecond of the last one, and its sequence full. -/
def Wraps (g : SnowflakeIDGenerator) (readings : List ClockReading) : Prop :=
  (∃ r ∈ readings.head?, r.timestamp = g.lastTimestamp) ∧ (g.sequence + 1) &&& 0xFFF = 0

/-- If the call has to wait, the first other reading it sees is a later one. -/
def WaitsForward (g : SnowflakeIDGenerator) (readings : List ClockReading) : Prop :=
  g.Wraps readings → ∀ r ∈ readings.find? (·.timestamp ≠ g.lastTimestamp),
    g.lastTimestamp < r.timestamp

/-! ## One call -/

variable {g g' : SnowflakeIDGenerator} {readings : List ClockReading}

/-- The loop ends with the first other reading. -/
lemma waitLoop_self (lastTimestamp : UInt64) (readings : List ClockReading) :
    waitLoop lastTimestamp lastTimestamp readings =
      (readings.find? (·.timestamp ≠ lastTimestamp)).map ClockReading.timestamp := by
  induction readings with
  | nil => simp [waitLoop]
  | cons r readings ih =>
    rw [waitLoop, if_pos rfl]
    by_cases hr : r.timestamp = lastTimestamp
    · rw [hr, ih, List.find?_cons_of_neg (by simp [hr])]
    · rw [List.find?_cons_of_pos (by simp [hr])]
      cases readings with
      | nil => simp [waitLoop, hr]
      | cons r' readings => simp [waitLoop, hr]

/-- A call throws and changes nothing, or it hands out the ID of the state it leaves: in a later
millisecond, in the same one with the next sequence, or, with a full sequence, in the first other
millisecond it sees. -/
lemma nextId_cases {result : Except String UInt64}
    (h : g.nextId readings = some (g', result)) :
    (∃ text, result = .error text) ∧ g' = g ∨
      result = .ok g'.assemble ∧
        (g.lastTimestamp < g'.lastTimestamp ∧ g'.sequence = 0 ∧
            (∃ r ∈ readings.head?, g'.lastTimestamp = r.timestamp) ∧ ¬ g.Wraps readings ∨
          g'.lastTimestamp = g.lastTimestamp ∧ g'.sequence ≠ 0 ∧
            g'.sequence = (g.sequence + 1) &&& 0xFFF ∧ ¬ g.Wraps readings ∨
          g.Wraps readings ∧ g'.sequence = 0 ∧
            ∃ r ∈ readings.find? (·.timestamp ≠ g.lastTimestamp),
              g'.lastTimestamp = r.timestamp) := by
  cases readings with
  | nil => cases h
  | cons r readings =>
    simp only [nextId] at h
    by_cases hback : r.timestamp < g.lastTimestamp
    · rw [if_pos hback] at h
      cases h
      exact Or.inl ⟨⟨_, rfl⟩, rfl⟩
    rw [if_neg hback] at h
    by_cases hsame : r.timestamp = g.lastTimestamp
    · rw [if_pos hsame] at h
      by_cases hwrap : (g.sequence + 1) &&& 0xFFF = 0
      · rw [if_pos hwrap, hsame, waitLoop_self] at h
        obtain ⟨next, hnext, heq⟩ := Option.map_eq_some_iff.1 h
        cases heq
        obtain ⟨r', hr', rfl⟩ := Option.map_eq_some_iff.1 hnext
        refine Or.inr ⟨rfl, Or.inr (Or.inr ⟨⟨⟨r, rfl, hsame⟩, hwrap⟩, hwrap, r', ?_, rfl⟩)⟩
        rw [List.find?_cons_of_neg (by simp [hsame])]
        exact hr'
      · rw [if_neg hwrap] at h
        cases h
        exact Or.inr ⟨rfl, Or.inr (Or.inl ⟨hsame, hwrap, rfl, fun hw => hwrap hw.2⟩)⟩
    · rw [if_neg hsame] at h
      cases h
      refine Or.inr ⟨rfl, Or.inl ⟨?_, rfl, ⟨r, rfl, rfl⟩, ?_⟩⟩
      · exact UInt64.lt_of_le_of_ne (UInt64.not_lt.1 hback) (Ne.symm hsame)
      · rintro ⟨⟨r', hr', heq⟩, -⟩
        cases hr'
        exact hsame heq

/-- With a full sequence the call ends at the first other reading, wherever it lies. -/
lemma nextId_of_wraps {r : ClockReading} (h : g.Wraps readings)
    (hr : readings.find? (·.timestamp ≠ g.lastTimestamp) = some r) :
    g.nextId readings = some (⟨r.timestamp, 0⟩, .ok (assemble ⟨r.timestamp, 0⟩)) := by
  obtain ⟨⟨r₀, hhead, hsame⟩, hwrap⟩ := h
  cases readings with
  | nil => cases hhead
  | cons r₁ readings =>
    cases hhead
    rw [List.find?_cons_of_neg (by simp [hsame])] at hr
    have hnotback : ¬ r₀.timestamp < g.lastTimestamp := hsame ▸ UInt64.lt_irrefl _
    simp only [nextId, if_neg hnotback, if_pos hsame, if_pos hwrap]
    rw [hsame, waitLoop_self, hr, hwrap]
    rfl

/-- A call keeps the time exactly if it does not wait, or waits for a later reading. -/
lemma keepsTime_iff : g.KeepsTime readings ↔ g.WaitsForward readings := by
  constructor
  · intro hkeeps hwraps r hr
    have hle := hkeeps _ _ (nextId_of_wraps hwraps hr)
    have hother : r.timestamp ≠ g.lastTimestamp := by simpa using List.find?_some hr
    exact UInt64.lt_of_le_of_ne hle (Ne.symm hother)
  · intro hforward g' result hnext
    obtain ⟨-, rfl⟩ | ⟨-, ⟨hlater, -⟩ | ⟨hsame, -⟩ | ⟨hwraps, -, r, hr, hlast⟩⟩ :=
      nextId_cases hnext
    · exact UInt64.le_refl _
    · exact UInt64.le_of_lt hlater
    · exact hsame ▸ UInt64.le_refl _
    · rw [hlast]
      exact UInt64.le_of_lt (hforward hwraps r hr)

/-! ## Runs -/

/-- Time and sequence stay within their fields. -/
def Bounded (g : SnowflakeIDGenerator) : Prop :=
  g.lastTimestamp.toNat < 2 ^ 42 ∧ g.sequence.toNat < 2 ^ 12

lemma timestamp_lt (r : ClockReading) : r.timestamp.toNat < 2 ^ 42 := by
  unfold ClockReading.timestamp
  rw [UInt64.toNat_sub_of_le _ _ r.epoch_le]
  have hlt := r.lt_epoch_add
  omega

lemma toNat_masked (x : UInt64) : (x &&& 0xFFF).toNat = x.toNat % 2 ^ 12 := by
  have hmask : (0xFFF : UInt64) = UInt64.ofNat (2 ^ 12 - 1) := by decide
  rw [hmask, FieldLayout.toNat_and_mask (by decide)]

lemma bounded_nextId {result : Except String UInt64} (hg : g.Bounded)
    (h : g.nextId readings = some (g', result)) : g'.Bounded := by
  have hzero (hseq : g'.sequence = 0) : g'.sequence.toNat < 2 ^ 12 := by
    rw [hseq]
    decide
  obtain ⟨-, rfl⟩ | ⟨-, ⟨-, hseq, ⟨r, -, hlast⟩, -⟩ | ⟨hsame, -, hseq, -⟩ |
    ⟨-, hseq, r, -, hlast⟩⟩ := nextId_cases h
  · exact hg
  · exact ⟨hlast ▸ timestamp_lt r, hzero hseq⟩
  · refine ⟨hsame ▸ hg.1, ?_⟩
    rw [hseq, toNat_masked]
    exact Nat.mod_lt _ (by decide)
  · exact ⟨hlast ▸ timestamp_lt r, hzero hseq⟩

lemma fits (hg : g.Bounded) : idLayout.Fits g.lastTimestamp workerId g.sequence :=
  ⟨hg.1, by decide, hg.2⟩

lemma assemble_eq_pack (g : SnowflakeIDGenerator) :
    g.assemble = idLayout.pack g.lastTimestamp workerId g.sequence := rfl

/-- A call that waits forward hands out an ID above the one the state before it stands for. -/
lemma assemble_lt_of_ok {id : UInt64} (hg : g.Bounded) (hforward : g.WaitsForward readings)
    (h : g.nextId readings = some (g', .ok id)) : id = g'.assemble ∧ g.assemble < id := by
  have hg' := bounded_nextId hg h
  obtain ⟨⟨text, herror⟩, -⟩ | ⟨hok, hgoes⟩ := nextId_cases h
  · cases herror
  obtain rfl : id = g'.assemble := Except.ok.inj hok
  refine ⟨rfl, ?_⟩
  rw [assemble_eq_pack, assemble_eq_pack]
  refine FieldLayout.pack_lt_pack (fits hg) (fits hg') ?_
  obtain ⟨hlater, -⟩ | ⟨hsame, hwrap, hseq, -⟩ | ⟨hwraps, -, r, hr, hlast⟩ := hgoes
  · exact Or.inl hlater
  · refine Or.inr ⟨hsame.symm, UInt64.lt_iff_toNat_lt.2 ?_⟩
    have hmod : g'.sequence.toNat = (g.sequence.toNat + 1) % 2 ^ 64 % 2 ^ 12 := by
      rw [hseq, toNat_masked, UInt64.toNat_add]
      rfl
    have hne : g'.sequence.toNat ≠ 0 := fun hzero => hwrap (UInt64.toNat_inj.1 hzero)
    have hlt := hg.2
    omega
  · exact Or.inl (hlast ▸ hforward hwraps r hr)

/-- What a call that waits forward does to the ID the state stands for. -/
lemma call_assemble {out : Option UInt64} (hg : g.Bounded) (hforward : g.WaitsForward readings)
    (h : call g readings = some (g', out)) :
    g'.Bounded ∧ g.assemble.toNat ≤ g'.assemble.toNat ∧
      ∀ id ∈ out, g.assemble.toNat < id.toNat ∧ id.toNat ≤ g'.assemble.toNat := by
  obtain ⟨⟨g₁, result⟩, hnext, heq⟩ := Option.map_eq_some_iff.1 h
  cases heq
  refine ⟨bounded_nextId hg hnext, ?_⟩
  cases result with
  | error text =>
    obtain ⟨-, rfl⟩ | ⟨hok, -⟩ := nextId_cases hnext
    · exact ⟨le_rfl, fun id hid => by cases hid⟩
    · cases hok
  | ok id =>
    obtain ⟨rfl, hlt⟩ := assemble_lt_of_ok hg hforward hnext
    have hlt' := UInt64.lt_iff_toNat_lt.1 hlt
    refine ⟨hlt'.le, fun id hid => ?_⟩
    obtain rfl := Option.some.inj hid
    exact ⟨hlt', le_rfl⟩

/-- **When IDs rise.**  For any calls in any order, with any readings of the clock, the IDs rise
and the time never goes back exactly if every call that has to wait, with its sequence full,
sees a later reading before any earlier one. -/
theorem ids_increasing_iff (calls : List (List ClockReading)) :
    ((ids calls).Pairwise (· < ·) ∧ Along (afterCall call) KeepsTime new calls) ↔
      Along (afterCall call) WaitsForward new calls := by
  have htime : Along (afterCall call) KeepsTime new calls ↔
      Along (afterCall call) WaitsForward new calls := by
    have hpres : Preserves (afterCall call) (fun _ _ => True) fun _ => True :=
      fun _ _ _ _ _ _ => trivial
    exact hpres.along_congr (fun _ _ _ _ _ => keepsTime_iff) trivial
  rw [htime]
  refine ⟨fun h => h.2, fun h => ⟨?_, h⟩⟩
  have hnew : new.Bounded := ⟨by decide, by decide⟩
  have hpair := (issued_pairwise_lt (fun g : SnowflakeIDGenerator => g.assemble.toNat)
    UInt64.toNat (fun _ _ _ _ hg hforward hcall => call_assemble hg hforward hcall) hnew h).1
  exact hpair.imp fun hlt => UInt64.lt_iff_toNat_lt.2 hlt

/-! ## A clock that steps back -/

/-- The readings of the first and of the second millisecond after the epoch. -/
def first : ClockReading := ⟨1672531200001, by decide, by decide⟩

def second : ClockReading := ⟨1672531200002, by decide, by decide⟩

/-- Calls within the second millisecond count the sequence up. -/
lemma afterCalls_burst (m k : ℕ) (h : k + m < 2 ^ 12) :
    afterCalls call ⟨2, UInt64.ofNat k⟩ (List.replicate m [second]) =
      some ⟨2, UInt64.ofNat (k + m)⟩ := by
  induction m generalizing k with
  | zero => rfl
  | succ m ih =>
    have hnext : (UInt64.ofNat k + 1) &&& 0xFFF = UInt64.ofNat (k + 1) := by
      apply UInt64.toNat_inj.1
      rw [← UInt64.ofNat_one, ← UInt64.ofNat_add, toNat_masked,
        UInt64.toNat_ofNat_of_lt' (by show k + 1 < 2 ^ 64; omega), Nat.mod_eq_of_lt (by omega)]
    have hne : UInt64.ofNat (k + 1) ≠ 0 := by
      intro hzero
      have hnat := congrArg UInt64.toNat hzero
      rw [UInt64.toNat_ofNat_of_lt' (by show k + 1 < 2 ^ 64; omega)] at hnat
      exact absurd hnat (Nat.succ_ne_zero k)
    have hcall : afterCall call ⟨2, UInt64.ofNat k⟩ [second] =
        some ⟨2, UInt64.ofNat (k + 1)⟩ := by
      have hsecond : second.timestamp = 2 := by decide
      have hid : nextId ⟨2, UInt64.ofNat k⟩ [second] =
          some (⟨2, UInt64.ofNat (k + 1)⟩, .ok (assemble ⟨2, UInt64.ofNat (k + 1)⟩)) := by
        simp only [nextId, hsecond, if_neg (UInt64.lt_irrefl 2), if_true]
        rw [hnext, if_neg hne]
      unfold afterCall call
      rw [hid]
      rfl
    rw [List.replicate_succ, afterCalls_cons hcall, ih (k + 1) (by omega)]
    congr 3
    omega

/-- A call in the first millisecond, 4096 calls in the second, and one more that waits there until
the clock steps back. -/
def stepBack : List (List ClockReading) :=
  [first] :: [second] :: List.replicate 4095 [second] ++ [[second, first]]

/-- The call that waited hands out the first ID again. -/
theorem not_ids_increasing_step_back :
    ¬ ((ids stepBack).Pairwise (· < ·) ∧ Along (afterCall call) KeepsTime new stepBack) := by
  rintro ⟨hpair, -⟩
  have hfirst : call new [first] = some (⟨1, 0⟩, some (assemble ⟨1, 0⟩)) := by decide
  have hsecond : afterCall call ⟨1, 0⟩ [second] = some ⟨2, UInt64.ofNat 0⟩ := by decide
  have hlast : call ⟨2, UInt64.ofNat (0 + 4095)⟩ [second, first] =
      some (⟨1, 0⟩, some (assemble ⟨1, 0⟩)) := by decide
  have hburst : afterCalls call ⟨1, 0⟩ ([second] :: List.replicate 4095 [second]) =
      some ⟨2, UInt64.ofNat (0 + 4095)⟩ := by
    rw [afterCalls_cons hsecond]
    exact afterCalls_burst 4095 0 (by decide)
  unfold ids stepBack at hpair
  rw [List.cons_append, issued_cons hfirst, issued_append hburst, issued_cons hlast] at hpair
  have hlt := (List.pairwise_cons.1 hpair).1 (assemble ⟨1, 0⟩)
    (List.mem_append_right _ (List.mem_append_right _ (List.mem_append_left _
      List.mem_cons_self)))
  exact UInt64.lt_irrefl _ hlt

end SnowflakeIDGenerator

end ClientServer.Testcontainer
