import ClientServer.Library.Bytes
import ClientServer.Library.Runs
import Mathlib.Data.List.Infix
import Mathlib.Logic.Function.Basic

/-!
# `netlib/queue.h`

`write_data` numbers a packet, enters the mutex and puts the packet into `queue_`; `try_get_pkt`
takes the first one out.  Any number of threads do so, and the number is taken before the mutex,
so others may come in between.

The packet is a local variable of which only `sec_num` is assigned: its other fields have what was
in their memory before.  `InTurn` says of a packet that enters the queue that no thread with an
earlier number is still outside, and that the memory had by chance what was to be sent.  The
packets come out as they were written exactly in the runs where that is so
(`deliversInOrder_iff`).

Nothing reads `rawbuffer_`.
-/

namespace ClientServer.Netlib

/-- `Packet`, with the bytes that `data` points to. -/
structure PacketQueue.Packet where
  secNum : UInt64
  size : ℤ
  data : Bytes
  deriving DecidableEq

/-- The fields of class `PacketQueue`, the threads in `write_data`, and what was written and
returned.  With a packet stands which of the calls it is from. -/
structure PacketQueue (ι : Type*) where
  queue : List (ℕ × PacketQueue.Packet)
  secNum : UInt64
  /-- The packet of a thread that has its number and has not entered the mutex. -/
  writing : ι → Option (ℕ × PacketQueue.Packet)
  /-- The arguments of the calls, in the order of their numbers. -/
  written : List (ℤ × Bytes)
  /-- The packets that `try_get_pkt` returned. -/
  returned : List (ℕ × PacketQueue.Packet)

namespace PacketQueue

variable {ι : Type*}

/-- What a thread does. -/
inductive Action (ι : Type*)
  /-- `sec_num_++` in a call `write_data(data, size)`, where the memory of the local packet has
  these contents. -/
  | number (i : ι) (size : ℤ) (data : Bytes) (memory : ℤ × Bytes)
  /-- The critical section of `write_data`. -/
  | push (i : ι)
  /-- `try_get_pkt`. -/
  | tryGetPkt
  deriving DecidableEq

/-- A new object. -/
def new : PacketQueue ι := ⟨[], 0, fun _ => none, [], []⟩

/-- One step, where the thread can take it. -/
def step [DecidableEq ι] (s : PacketQueue ι) : Action ι → Option (PacketQueue ι)
  | .number i size data memory =>
    match s.writing i with
    | none => some
      { s with
        secNum := s.secNum + 1
        writing := Function.update s.writing i
          (some (s.written.length, ⟨s.secNum, memory.1, memory.2⟩))
        written := s.written ++ [(size, data)] }
    | some _ => none
  | .push i =>
    match s.writing i with
    | none => none
    | some d => some
      { s with queue := s.queue ++ [d], writing := Function.update s.writing i none }
  | .tryGetPkt =>
    match s.queue with
    | [] => some s
    | p :: rest => some { s with queue := rest, returned := s.returned ++ [p] }

/-- A packet is that of the call with number `n`, and has this number and what the call was
given. -/
def Fits (written : List (ℤ × Bytes)) (p : ℕ × Packet) (n : ℕ) : Prop :=
  p.1 = n ∧ p.2.secNum.toNat = n ∧ written[n]? = some (p.2.size, p.2.data)

instance (written : List (ℤ × Bytes)) (p : ℕ × Packet) (n : ℕ) : Decidable (Fits written p n) :=
  inferInstanceAs (Decidable (_ ∧ _))

/-- Every packet of a list fits its place. -/
def AllFit (written : List (ℤ × Bytes)) (ps : List (ℕ × Packet)) : Prop :=
  ∀ pn ∈ ps.zipIdx, Fits written pn.1 pn.2

instance (written : List (ℤ × Bytes)) (ps : List (ℕ × Packet)) : Decidable (AllFit written ps) :=
  inferInstanceAs (Decidable (∀ pn ∈ ps.zipIdx, _))

/-- What was returned has the numbers `0`, `1`, `2` and so on, and what was written. -/
def Delivers (s : PacketQueue ι) : Prop := AllFit s.written s.returned

instance : DecidablePred (Delivers (ι := ι)) := fun s =>
  inferInstanceAs (Decidable (AllFit s.written s.returned))

/-- The call whose packet enters the queue is one of the first `2 ^ 64`, its packet had by chance
what was passed, and no earlier call waits to enter. -/
def InTurn (s : PacketQueue ι) : Action ι → Prop
  | .push i => ∀ n d, s.writing i = some (n, d) → n < 2 ^ 64 ∧
      s.written[n]? = some (d.size, d.data) ∧ ∀ j m e, s.writing j = some (m, e) → n ≤ m
  | _ => True

/-! ## Lists of packets -/

variable {written : List (ℤ × Bytes)} {ps qs : List (ℕ × Packet)} {p : ℕ × Packet}

lemma allFit_append_singleton :
    AllFit written (ps ++ [p]) ↔ AllFit written ps ∧ Fits written p ps.length := by
  simp only [AllFit, List.zipIdx_append, List.zipIdx_singleton, List.forall_mem_append,
    List.forall_mem_singleton, Nat.zero_add]

lemma AllFit.of_append (h : AllFit written (ps ++ qs)) : AllFit written ps := by
  intro pn hpn
  refine h pn ?_
  rw [List.zipIdx_append]
  exact List.mem_append_left _ hpn

/-- More calls do not change what the earlier ones were given. -/
lemma Fits.append {n : ℕ} (h : Fits written p n) (more : List (ℤ × Bytes)) :
    Fits (written ++ more) p n := by
  refine ⟨h.1, h.2.1, ?_⟩
  obtain ⟨hlt, -⟩ := List.getElem?_eq_some_iff.mp h.2.2
  rw [List.getElem?_append_left hlt]
  exact h.2.2

/-! ## One step -/

/-- What was returned and what will be next. -/
def placed (s : PacketQueue ι) : List (ℕ × Packet) := s.returned ++ s.queue

/-- The packets in the queue are in their places, and the calls after them are waiting. -/
structure WaitsInTurn (s : PacketQueue ι) : Prop where
  placed : AllFit s.written s.placed
  placed_le : s.placed.length ≤ s.written.length
  secNum : s.secNum = UInt64.ofNat s.written.length
  number : ∀ i n d, s.writing i = some (n, d) → d.secNum = UInt64.ofNat n
  waiting : ∀ n, (∃ i d, s.writing i = some (n, d)) ↔ s.placed.length ≤ n ∧ n < s.written.length
  distinct : ∀ i j n d e, s.writing i = some (n, d) → s.writing j = some (n, e) → i = j

lemma waitsInTurn_new : (new : PacketQueue ι).WaitsInTurn where
  placed := fun _ hpn => absurd hpn List.not_mem_nil
  placed_le := le_rfl
  secNum := rfl
  number := fun _ _ _ h => absurd h (Option.some_ne_none _).symm
  waiting := fun n => ⟨fun ⟨_, _, h⟩ => absurd h (Option.some_ne_none _).symm,
    fun h => absurd h.2 (Nat.not_lt_zero n)⟩
  distinct := fun _ _ _ _ _ h => absurd h (Option.some_ne_none _).symm

lemma WaitsInTurn.delivers {s : PacketQueue ι} (h : s.WaitsInTurn) : s.Delivers :=
  h.placed.of_append

/-- The first of the calls that wait fits its place, if its packet has what was passed. -/
lemma WaitsInTurn.fits_iff {s : PacketQueue ι} (hs : s.WaitsInTurn) {i : ι} {n : ℕ} {d : Packet}
    (hd : s.writing i = some (n, d)) :
    Fits s.written (n, d) s.placed.length ↔ s.InTurn (.push i) := by
  obtain ⟨hle, hlt⟩ := (hs.waiting n).mp ⟨i, d, hd⟩
  have hsecNum : d.secNum.toNat = n % 2 ^ 64 := by
    rw [hs.number i n d hd, UInt64.toNat_ofNat']
  constructor
  · rintro ⟨hn, hnum, hwritten⟩ n' d' hd'
    rw [hd] at hd'
    cases hd'
    dsimp only at hn hnum hwritten
    rw [← hn] at hnum hwritten
    refine ⟨?_, hwritten, fun j m e he => ?_⟩
    · rw [← hnum]
      exact d.secNum.toNat_lt
    · rw [hn]
      exact ((hs.waiting m).mp ⟨j, e, he⟩).1
  · intro hturn
    obtain ⟨hbound, hwritten, hfirst⟩ := hturn n d hd
    obtain ⟨j, e, he⟩ := (hs.waiting s.placed.length).mpr ⟨le_rfl, hle.trans_lt hlt⟩
    have hn : n = s.placed.length := le_antisymm (hfirst j _ e he) hle
    rw [← hn]
    exact ⟨rfl, hsecNum.trans (Nat.mod_eq_of_lt hbound), hwritten⟩

variable [DecidableEq ι] {s s' : PacketQueue ι}

lemma step_number {i : ι} {size : ℤ} {data : Bytes} {memory : ℤ × Bytes}
    (h : s.step (.number i size data memory) = some s') :
    s'.placed = s.placed ∧ s'.written = s.written ++ [(size, data)] ∧ s'.secNum = s.secNum + 1 ∧
      ∃ d : Packet, d.secNum = s.secNum ∧
        ∀ j nd, s'.writing j = some nd ↔
          (j = i ∧ (s.written.length, d) = nd) ∨ s.writing j = some nd := by
  simp only [step] at h
  split at h
  · next hi =>
    cases h
    refine ⟨rfl, rfl, rfl, ⟨s.secNum, memory.1, memory.2⟩, rfl, fun j nd => ?_⟩
    by_cases hji : j = i
    · simp only [hji, Function.update_self, hi, Option.some.injEq, true_and, reduceCtorEq, or_false]
    · simp only [hji, Function.update_of_ne hji, false_and, false_or]
  · cases h

lemma step_push {i : ι} (h : s.step (.push i) = some s') :
    s'.written = s.written ∧ s'.secNum = s.secNum ∧ ∃ d, s.writing i = some d ∧
      s'.placed = s.placed ++ [d] ∧
        ∀ j nd, s'.writing j = some nd ↔ j ≠ i ∧ s.writing j = some nd := by
  simp only [step] at h
  split at h
  · cases h
  · next d hd =>
    cases h
    refine ⟨rfl, rfl, d, hd, (List.append_assoc _ _ _).symm, fun j nd => ?_⟩
    by_cases hji : j = i
    · simp only [hji, Function.update_self, reduceCtorEq, ne_eq, not_true_eq_false, false_and]
    · simp only [hji, Function.update_of_ne hji, ne_eq, not_false_eq_true, true_and]

lemma step_tryGetPkt (h : s.step .tryGetPkt = some s') :
    s'.written = s.written ∧ s'.writing = s.writing ∧ s'.secNum = s.secNum ∧
      s'.placed = s.placed := by
  simp only [step] at h
  split at h
  · cases h
    exact ⟨rfl, rfl, rfl, rfl⟩
  · next p rest hqueue =>
    cases h
    refine ⟨rfl, rfl, rfl, ?_⟩
    simp only [placed, hqueue, List.append_assoc, List.singleton_append]

lemma WaitsInTurn.number_step (hs : s.WaitsInTurn) {i : ι} {size : ℤ} {data : Bytes}
    {memory : ℤ × Bytes} (h : s.step (.number i size data memory) = some s') :
    s'.WaitsInTurn := by
  obtain ⟨hplaced, hwritten, hsecNum, d, hd, hwriting⟩ := step_number h
  have hlen : s'.written.length = s.written.length + 1 := by
    rw [hwritten, List.length_append, List.length_singleton]
  -- a call that waited before is an earlier one
  have hlt : ∀ {j n e}, s.writing j = some (n, e) → n < s.written.length := fun hj =>
    ((hs.waiting _).mp ⟨_, _, hj⟩).2
  refine ⟨?_, ?_, ?_, ?_, ?_, ?_⟩
  · rw [hplaced, hwritten]
    exact fun pn hpn => (hs.placed pn hpn).append _
  · rw [hplaced, hlen]
    exact hs.placed_le.trans (Nat.le_succ _)
  · rw [hsecNum, hlen, hs.secNum]
    exact (UInt64.ofNat_add _ 1).symm
  · intro j n e he
    rcases (hwriting j _).mp he with ⟨-, hnew⟩ | hold
    · cases hnew
      rw [hd, hs.secNum]
    · exact hs.number j n e hold
  · intro n
    rw [hplaced, hlen, Nat.lt_succ_iff]
    constructor
    · rintro ⟨j, e, he⟩
      rcases (hwriting j _).mp he with ⟨-, hnew⟩ | hold
      · cases hnew
        exact ⟨hs.placed_le, le_rfl⟩
      · obtain ⟨hle, hlt⟩ := (hs.waiting n).mp ⟨j, e, hold⟩
        exact ⟨hle, hlt.le⟩
    · rintro ⟨hle, hn⟩
      rcases hn.eq_or_lt with rfl | hn
      · exact ⟨i, d, (hwriting i _).mpr (Or.inl ⟨rfl, rfl⟩)⟩
      · obtain ⟨j, e, he⟩ := (hs.waiting n).mpr ⟨hle, hn⟩
        exact ⟨j, e, (hwriting j _).mpr (Or.inr he)⟩
  · intro j k n e e' he he'
    rcases (hwriting j _).mp he with ⟨rfl, hnew⟩ | hold <;>
      rcases (hwriting k _).mp he' with ⟨rfl, hnew'⟩ | hold'
    · rfl
    · cases hnew
      exact absurd (hlt hold') (lt_irrefl _)
    · cases hnew'
      exact absurd (hlt hold) (lt_irrefl _)
    · exact hs.distinct j k n e e' hold hold'

lemma WaitsInTurn.push_step (hs : s.WaitsInTurn) {i : ι} (hturn : s.InTurn (.push i))
    (h : s.step (.push i) = some s') : s'.WaitsInTurn := by
  obtain ⟨hwritten, hsecNum, ⟨n, d⟩, hd, hplaced, hwriting⟩ := step_push h
  have hfits := (hs.fits_iff hd).mpr hturn
  have hn : n = s.placed.length := hfits.1
  have hlen : s'.placed.length = s.placed.length + 1 := by
    rw [hplaced, List.length_append, List.length_singleton]
  refine ⟨?_, ?_, ?_, ?_, ?_, ?_⟩
  · rw [hplaced, hwritten, allFit_append_singleton]
    exact ⟨hs.placed, hfits⟩
  · rw [hlen, hwritten, ← hn]
    exact ((hs.waiting n).mp ⟨i, d, hd⟩).2
  · rw [hsecNum, hwritten]
    exact hs.secNum
  · exact fun j m e he => hs.number j m e ((hwriting j _).mp he).2
  · intro m
    rw [hlen, hwritten, Nat.succ_le_iff]
    constructor
    · rintro ⟨j, e, he⟩
      obtain ⟨hji, hold⟩ := (hwriting j _).mp he
      obtain ⟨hle, hlt⟩ := (hs.waiting m).mp ⟨j, e, hold⟩
      refine ⟨lt_of_le_of_ne hle fun hm => hji ?_, hlt⟩
      rw [hn, hm] at hd
      exact hs.distinct j i m e d hold hd
    · rintro ⟨hlt, hm⟩
      obtain ⟨j, e, he⟩ := (hs.waiting m).mpr ⟨hlt.le, hm⟩
      refine ⟨j, e, (hwriting j _).mpr ⟨?_, he⟩⟩
      rintro rfl
      rw [hd] at he
      cases he
      exact absurd hlt (hn ▸ lt_irrefl _)
  · exact fun j k m e e' he he' =>
      hs.distinct j k m e e' ((hwriting j _).mp he).2 ((hwriting k _).mp he').2

lemma WaitsInTurn.tryGetPkt_step (hs : s.WaitsInTurn) (h : s.step .tryGetPkt = some s') :
    s'.WaitsInTurn := by
  obtain ⟨hwritten, hwriting, hsecNum, hplaced⟩ := step_tryGetPkt h
  constructor
  · rw [hplaced, hwritten]
    exact hs.placed
  · rw [hplaced, hwritten]
    exact hs.placed_le
  · rw [hsecNum, hwritten]
    exact hs.secNum
  · rw [hwriting]
    exact hs.number
  · rw [hwriting, hplaced, hwritten]
    exact hs.waiting
  · rw [hwriting]
    exact hs.distinct

lemma preserves_waitsInTurn : Preserves (step (ι := ι)) InTurn WaitsInTurn := by
  intro s a s' hs hturn h
  cases a with
  | number i size data memory => exact hs.number_step h
  | push i => exact hs.push_step hturn h
  | tryGetPkt => exact hs.tryGetPkt_step h

/-- A packet that fits its place was put there in turn. -/
lemma WaitsInTurn.inTurn_of_allFit (hs : s.WaitsInTurn) {a : Action ι} (h : s.step a = some s')
    (hfit : AllFit s'.written s'.placed) : s.InTurn a := by
  cases a with
  | number => trivial
  | push i =>
    obtain ⟨hwritten, -, ⟨n, d⟩, hd, hplaced, -⟩ := step_push h
    rw [hwritten, hplaced, allFit_append_singleton] at hfit
    exact (hs.fits_iff hd).mp hfit.2
  | tryGetPkt => trivial

/-- If the packets fit however many are taken out, those in the queue fit. -/
lemma allFit_of_drained (s : PacketQueue ι)
    (h : ∀ k, Throughout step Delivers s (List.replicate k .tryGetPkt)) :
    AllFit s.written s.placed := by
  generalize hqueue : s.queue = queue
  induction queue generalizing s with
  | nil =>
    have hdelivers : s.Delivers := h 0
    rw [placed, hqueue, List.append_nil]
    exact hdelivers
  | cons p rest ih =>
    have hstep : s.step .tryGetPkt =
        some { s with queue := rest, returned := s.returned ++ [p] } := by
      simp only [step, hqueue]
    have hrest := ih _ (fun k => (h (k + 1)).2 _ hstep) rfl
    obtain ⟨hwritten, -, -, hplaced⟩ := step_tryGetPkt hstep
    rw [hwritten, hplaced] at hrest
    exact hrest

/-! ## Runs -/

/-- **When the packets come out as they were written.**  After any part of the run, any number of
`try_get_pkt` calls return the packets in the order of their numbers with what was written,
exactly if every packet enters the queue in its turn, with its fields as they should be. -/
theorem deliversInOrder_iff (as : List (Action ι)) :
    (∀ pre, pre <+: as → ∀ k,
        Throughout step Delivers new (pre ++ List.replicate k .tryGetPkt)) ↔
      Along step InTurn new as := by
  constructor
  · have hgen : ∀ s : PacketQueue ι, s.WaitsInTurn → (∀ pre, pre <+: as → ∀ k,
        Throughout step Delivers s (pre ++ List.replicate k .tryGetPkt)) →
          Along step InTurn s as := by
      induction as with
      | nil => exact fun _ _ _ => trivial
      | cons a as ih =>
        intro s hs hall s' hstep
        have hturn : s.InTurn a := hs.inTurn_of_allFit hstep <| allFit_of_drained s' fun k =>
          (hall [a] (List.prefix_append [a] as) k).2 s' hstep
        refine ⟨hturn, ih s' (preserves_waitsInTurn s a s' hs hturn hstep) fun pre hpre k => ?_⟩
        exact (hall (a :: pre) (List.cons_prefix_cons.mpr ⟨rfl, hpre⟩) k).2 s' hstep
    exact hgen new waitsInTurn_new
  · intro hturn pre hpre k
    refine preserves_waitsInTurn.throughout (fun _ hs => hs.delivers) waitsInTurn_new ?_
    refine (hturn.of_isPrefix hpre).append fun t => ?_
    induction k generalizing t with
    | zero => trivial
    | succ k ih => exact fun t' _ => ⟨trivial, ih t'⟩

/-- A packet of one byte comes out with what was in the memory of the local variable.  And where
that is by chance what was written, two threads may push in the other order. -/
theorem not_delivers_one_packet :
    (¬ ∀ as : List (Action Unit), Throughout step Delivers new as) ∧
      ¬ Throughout step Delivers (new : PacketQueue Bool)
        [.number true 1 [7] (1, [7]), .number false 1 [8] (1, [8]), .push false, .push true,
          .tryGetPkt] := by
  refine ⟨fun hall => ?_, by decide⟩
  exact absurd (hall [.number () 1 [7] (0, []), .push (), .tryGetPkt]) (by decide)

end PacketQueue

end ClientServer.Netlib
