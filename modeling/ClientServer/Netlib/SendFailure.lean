import Mathlib.Algebra.Order.BigOperators.Group.Finset
import ClientServer.Library.Pipe
import ClientServer.Netlib.SendPath

/-!
# A failed `sendPacketPayload`

`sendPacketPayload` sends a header and then a payload, each in a partial-send loop, and drops
the result of the first loop.  `FailsCleanly` is what a caller needs of it when a `send` fails:
only a prefix of the packet on the wire, and a result that says whether it is all of it.
`failsCleanly_iff` compares that with what the kernel answers.  A header that the kernel does not
take whole is followed by payload bytes all the same, and these would have to continue the header
by coincidence.
-/

namespace ClientServer.Netlib

/-- During the call a prefix of the packet goes out, and the result says whether it is all. -/
def FailsCleanly (s : Socket) (header data : Bytes) : Prop :=
  ∃ out, (sendPacketPayload s header data).2.wire = s.wire ++ out ∧ out <+: header ++ data ∧
    ((sendPacketPayload s header data).1 = true ↔ out = header ++ data)

/-- The kernel takes `k` bytes of the header and `j` of the payload, neither of them whole, and
the payload bytes are the ones that are due behind those of the header. -/
def Socket.StopsInBoth (s : Socket) (header data : Bytes) : Prop :=
  ∃ m k, s.StopsAfter m k ∧ k < header.length ∧
    ∃ m' j, (s.next (m + 1) []).StopsAfter m' j ∧ j < data.length ∧
      data.take j <+: header.drop k ++ data

namespace Socket

variable {s : Socket}

lemma Takes.eq_of_stops {m m' : ℕ} (h : s.Takes m) (h' : s.Takes m') (hstop : s.count m = 0)
    (hstop' : s.count m' = 0) : m = m' := by
  rcases Nat.lt_trichotomy m m' with hlt | heq | hlt
  · exact absurd hstop (h' m hlt).ne'
  · exact heq
  · exact absurd hstop' (h m' hlt).ne'

/-- The answers determine where a loop stops. -/
lemma StopsAfter.unique {m m' k k' : ℕ} (h : s.StopsAfter m k) (h' : s.StopsAfter m' k') :
    m = m' ∧ k = k' := by
  obtain rfl := h.1.eq_of_stops h'.1 h.2.1 h'.2.1
  exact ⟨rfl, h.2.2.symm.trans h'.2.2⟩

lemma taken_mono {m m' : ℕ} (h : m ≤ m') : s.taken m ≤ s.taken m' :=
  Finset.sum_le_sum_of_subset (Finset.range_mono h)

/-- A loop that stops short of `n` bytes does not get `n` bytes. -/
lemma StopsAfter.not_takesAll {m k n : ℕ} (h : s.StopsAfter m k) (hk : k < n) :
    ¬ s.TakesAll n := by
  rintro ⟨m', htakes, hle⟩
  obtain ⟨-, hstop, rfl⟩ := h
  have hm : m' ≤ m := by
    by_contra hlt
    exact absurd hstop (htakes m (not_le.mp hlt)).ne'
  have := s.taken_mono hm
  omega

end Socket

/-! ## Both loops -/

variable {s : Socket} {header data : Bytes}

/-- The pipe that carries one packet: of the header `k` bytes arrive, of the payload `j`. -/
def packetPipe (header data : Bytes) (k j : ℕ) : Pipe UInt8 :=
  (((Pipe.empty.feed header).deliver (header.take k)).feed data).deliver (data.take j)

lemma packetPipe_put (k j : ℕ) : (packetPipe header data k j).put = header ++ data := rfl

lemma packetPipe_out (k j : ℕ) :
    (packetPipe header data k j).out = header.take k ++ data.take j := rfl

/-- Payload bytes behind `k` bytes of the header. -/
lemma packetPipe_inOrder_iff (k j : ℕ) :
    (packetPipe header data k j).InOrder ↔
      data.take j <+: header.drop (min k header.length) ++ data := by
  have hheader : ((Pipe.empty.feed header).deliver (header.take k)).InOrder :=
    (Pipe.inOrder_feed_deliver_iff Pipe.inOrder_empty header k).mpr (List.take_prefix k header)
  have hmissing : ((Pipe.empty.feed header).deliver (header.take k)).missing =
      header.drop (min k header.length) := by
    rw [Pipe.missing_deliver, List.length_take]
    rfl
  rw [packetPipe, Pipe.inOrder_feed_deliver_iff hheader, hmissing]

/-- What goes out is determined by the call. -/
lemma failsCleanly_iff_of_eq {k j m : ℕ} {sent : Bool}
    (hcall : sendPacketPayload s header data =
      (sent, s.next m (header.take k ++ data.take j))) :
    FailsCleanly s header data ↔ (packetPipe header data k j).InOrder ∧
      (sent = true ↔ header.take k ++ data.take j = header ++ data) := by
  rw [FailsCleanly, hcall, Pipe.InOrder, packetPipe_put, packetPipe_out]
  constructor
  · rintro ⟨out, hwire, hcontinues, hsent⟩
    obtain rfl : header.take k ++ data.take j = out := List.append_cancel_left hwire
    exact ⟨hcontinues, hsent⟩
  · rintro ⟨hcontinues, hsent⟩
    exact ⟨_, rfl, hcontinues, hsent⟩

/-- Behind a whole header any prefix of the payload may follow. -/
lemma failsCleanly_of_header {j m : ℕ} {sent : Bool} (hj : j ≤ data.length)
    (hcall : sendPacketPayload s header data =
      (sent, s.next m (header.take header.length ++ data.take j)))
    (hsent : sent = true ↔ j = data.length) : FailsCleanly s header data := by
  rw [failsCleanly_iff_of_eq hcall, packetPipe_inOrder_iff, min_self, List.drop_length]
  refine ⟨List.take_prefix j data, ?_⟩
  rw [hsent, List.take_length, List.append_cancel_left_eq, List.take_eq_self_iff]
  omega

/-- Behind a header cut short the call must not report success, and the payload bytes have to
continue the header. -/
lemma failsCleanly_iff_of_stop {k j m : ℕ} {sent : Bool} (hk : k < header.length)
    (hcall : sendPacketPayload s header data =
      (sent, s.next m (header.take k ++ data.take j))) :
    FailsCleanly s header data ↔
      sent = false ∧ data.take j <+: header.drop k ++ data := by
  have hshort : header.take k ++ data.take j ≠ header ++ data := by
    intro heq
    have hlength := congrArg List.length heq
    rw [List.length_append, List.length_append, List.length_take, List.length_take] at hlength
    omega
  rw [failsCleanly_iff_of_eq hcall, packetPipe_inOrder_iff, min_eq_left hk.le, and_comm]
  refine and_congr_left fun _ => ?_
  rw [iff_false_right hshort, Bool.not_eq_true]

/-- What the call returns, from the results of the two loops. -/
lemma sendPacketPayload_eq {s₁ : Socket} {ok : Bool} (data : Bytes)
    (h : sendAll s header = (ok, s₁)) :
    sendPacketPayload s header data = sendLoop s₁ data 0 data.length := by
  rw [sendPacketPayload, h]

/-- **When a failed send is clean**: the kernel takes the whole header, or it cuts the header and
the payload short and the payload bytes happen to continue the header. -/
theorem failsCleanly_iff (s : Socket) (header data : Bytes) :
    FailsCleanly s header data ↔ s.TakesAll header.length ∨ s.StopsInBoth header data := by
  rcases sendLoop_cases s header 0 header.length (by omega) with
    ⟨hheader, m, hloop⟩ | ⟨m, k, hk, hstop, hloop⟩
  · -- the header goes out whole
    refine iff_of_true ?_ (.inl hheader)
    rw [List.drop_zero] at hloop
    have hcall := sendPacketPayload_eq data hloop
    rcases sendLoop_cases (s.next m (header.take header.length)) data 0 data.length (by omega)
      with ⟨-, m', hpayload⟩ | ⟨m', j, hj, -, hpayload⟩
    · rw [hpayload, Socket.next_next, List.drop_zero] at hcall
      exact failsCleanly_of_header (le_refl _) hcall (by simp)
    · rw [hpayload, Socket.next_next, List.drop_zero] at hcall
      exact failsCleanly_of_header hj.le hcall (by simp [hj.ne])
  · -- the header is cut short
    rw [List.drop_zero] at hloop
    have hcall := sendPacketPayload_eq data hloop
    rw [or_iff_right (hstop.not_takesAll hk)]
    rcases sendLoop_cases (s.next (m + 1) (header.take k)) data 0 data.length (by omega)
      with ⟨hall, m', hpayload⟩ | ⟨m', j, hj, hstop', hpayload⟩
    · rw [hpayload, Socket.next_next, List.drop_zero] at hcall
      rw [failsCleanly_iff_of_stop hk hcall]
      refine iff_of_false (fun h => absurd h.1 (by decide)) ?_
      rintro ⟨m₁, k₁, hstop₁, -, m₂, j, hstop₂, hj, -⟩
      obtain ⟨rfl, rfl⟩ := hstop.unique hstop₁
      exact hstop₂.not_takesAll hj hall
    · rw [hpayload, Socket.next_next, List.drop_zero] at hcall
      rw [failsCleanly_iff_of_stop hk hcall]
      constructor
      · rintro ⟨-, hcontinues⟩
        exact ⟨m, k, hstop, hk, m', j, hstop', hj, hcontinues⟩
      · rintro ⟨m₁, k₁, hstop₁, -, m₂, j₂, hstop₂, -, hcontinues⟩
        obtain ⟨rfl, rfl⟩ := hstop.unique hstop₁
        obtain ⟨rfl, rfl⟩ := Socket.StopsAfter.unique hstop' hstop₂
        exact ⟨rfl, hcontinues⟩

/-- A socket that takes one byte, fails, and takes one byte again. -/
def faultySocket : Socket :=
  ⟨fun i => if i = 1 then .fail else .accept 1, 0, []⟩

/-- The second byte of the header is lost, the payload goes out, and the call reports success. -/
theorem not_failsCleanly_faultySocket :
    ¬ ∀ (s : Socket) (header data : Bytes), FailsCleanly s header data := by
  intro hall
  have hcall : (sendPacketPayload faultySocket [1, 2] [7]).2.wire = [1, 7] := by
    simp [sendPacketPayload, sendAll, sendLoop, Socket.send, faultySocket]
  obtain ⟨out, hwire, hcontinues, -⟩ := hall faultySocket [1, 2] [7]
  obtain rfl : [1, 7] = out := hcall.symm.trans hwire
  exact absurd hcontinues (by decide)

end ClientServer.Netlib
