import ClientServer.Netlib.Parsing

/-!
# The send path: what `sendDataPkt` puts on the wire

`sendLoop_cases` is the specification of the partial-send loop that every send function ends in:
whatever the kernel answers, the bytes accepted are a prefix of the bytes offered, and the loop
returns true exactly when that prefix is all of them.  On a socket that accepts every byte the
two loops of `sendDataPkt` therefore emit their arguments whole (`sendDataPkt_eq`), and since
the header is an argument of both, each packet goes out as header, header, payload.

The receiver's half is right: `tryParseMessages_encodeAll` parses a stream of one frame per
packet back to exactly those packets.  So a list of packets round-trips exactly when it is
empty (`roundTrips_iff`).
-/

namespace ClientServer.Netlib

open MessageParser

/-! ## The partial-send loop -/

/-- Every `send` takes at least one byte of those offered. -/
def Socket.AcceptsAll (s : Socket) : Prop := ∀ i, ∃ n, s.answers i = .accept (n + 1)

namespace Socket

/-- What the `i`-th next call takes at most. -/
def count (s : Socket) (i : ℕ) : ℕ := (s.answers (s.calls + i)).count

/-- None of the next `m` calls fails or takes nothing. -/
def Takes (s : Socket) (m : ℕ) : Prop := ∀ i < m, 0 < s.count i

/-- What the next `m` calls take between them. -/
def taken (s : Socket) (m : ℕ) : ℕ := ∑ i ∈ Finset.range m, s.count i

/-- The next calls take `n` bytes before one of them takes none. -/
def TakesAll (s : Socket) (n : ℕ) : Prop := ∃ m, s.Takes m ∧ n ≤ s.taken m

/-- The next `m` calls take `k` bytes, and the one after them takes none. -/
def StopsAfter (s : Socket) (m k : ℕ) : Prop := s.Takes m ∧ s.count m = 0 ∧ s.taken m = k

/-- `m` calls further, with more on the wire. -/
def next (s : Socket) (m : ℕ) (bs : Bytes) : Socket :=
  { s with calls := s.calls + m, wire := s.wire ++ bs }

variable {s : Socket}

lemma next_next (m m' : ℕ) (bs bs' : Bytes) :
    (s.next m bs).next m' bs' = s.next (m + m') (bs ++ bs') := by
  simp only [next, Nat.add_assoc, List.append_assoc]

lemma count_next (m : ℕ) (bs : Bytes) (i : ℕ) : (s.next m bs).count i = s.count (m + i) := by
  rw [count, count, next, Nat.add_assoc]

lemma takes_succ {m : ℕ} {bs : Bytes} (h : 0 < s.count 0) (hrest : (s.next 1 bs).Takes m) :
    s.Takes (m + 1) := by
  intro i hi
  cases i with
  | zero => exact h
  | succ i =>
    have hnext := hrest i (Nat.lt_of_succ_lt_succ hi)
    rwa [count_next, Nat.add_comm] at hnext

lemma taken_succ (m : ℕ) (bs : Bytes) : s.taken (m + 1) = s.count 0 + (s.next 1 bs).taken m := by
  rw [taken, Finset.sum_range_succ', Nat.add_comm]
  congr 1
  refine Finset.sum_congr rfl fun i _ => ?_
  rw [count_next, Nat.add_comm]

lemma TakesAll.succ {n : ℕ} {bs : Bytes} (h : 0 < s.count 0)
    (hrest : (s.next 1 bs).TakesAll (n - min (s.count 0) n)) : s.TakesAll n := by
  obtain ⟨m, htakes, hle⟩ := hrest
  refine ⟨m + 1, takes_succ h htakes, ?_⟩
  rw [taken_succ m bs]
  omega

lemma StopsAfter.succ {m k : ℕ} {bs : Bytes} (h : 0 < s.count 0)
    (hrest : (s.next 1 bs).StopsAfter m k) : s.StopsAfter (m + 1) (s.count 0 + k) := by
  obtain ⟨htakes, hstop, htaken⟩ := hrest
  rw [count_next, Nat.add_comm] at hstop
  exact ⟨takes_succ h htakes, hstop, by rw [taken_succ m bs, htaken]⟩

/-- A call that takes bytes. -/
lemma send_of_count_pos (h : 0 < s.count 0) (bs : Bytes) :
    s.send bs = (((min (s.count 0) bs.length : ℕ) : ℤ), s.next 1 (bs.take (s.count 0))) := by
  rw [count, Nat.add_zero] at h ⊢
  cases hanswer : s.answers s.calls with
  | fail => simp [hanswer, SendAnswer.count] at h
  | accept n => simp only [send, hanswer, SendAnswer.count, next]

/-- A call that takes none. -/
lemma send_of_count_zero (h : s.count 0 = 0) (bs : Bytes) :
    ∃ sent ≤ 0, s.send bs = (sent, s.next 1 []) := by
  rw [count, Nat.add_zero] at h
  cases hanswer : s.answers s.calls with
  | fail => exact ⟨-1, by decide, by simp [send, hanswer, next]⟩
  | accept n =>
    obtain rfl : n = 0 := by simpa [hanswer, SendAnswer.count] using h
    exact ⟨0, le_refl 0, by simp [send, hanswer, next]⟩

end Socket

section Loop

variable {s : Socket} {data : Bytes} {t r : ℕ}

/-- A `send` that takes nothing ends the loop. -/
lemma sendLoop_of_count_zero (hr : r ≠ 0) (h : s.count 0 = 0) :
    sendLoop s data t r = (false, s.next 1 []) := by
  obtain ⟨sent, hsent, hsend⟩ := Socket.send_of_count_zero h ((data.drop t).take r)
  rw [sendLoop, if_neg hr]
  simp only [hsend]
  rw [if_neg (not_lt.mpr hsent)]

/-- Otherwise it goes on behind the bytes that went out. -/
lemma sendLoop_of_count_pos (hr : r ≠ 0) (hin : t + r ≤ data.length) (h : 0 < s.count 0) :
    sendLoop s data t r =
      sendLoop (s.next 1 ((data.drop t).take (min (s.count 0) r))) data
        (t + min (s.count 0) r) (r - min (s.count 0) r) := by
  have hoffer : ((data.drop t).take r).length = r := by
    rw [List.length_take, List.length_drop]
    omega
  have hsend := Socket.send_of_count_pos h ((data.drop t).take r)
  rw [hoffer, List.take_take] at hsend
  have hpos : 0 < min (s.count 0) r := lt_min h (Nat.pos_of_ne_zero hr)
  rw [sendLoop, if_neg hr]
  simp only [hsend]
  rw [if_pos (by exact_mod_cast hpos), Int.toNat_natCast]

/-- What two calls send of the data stands there in one piece. -/
lemma take_append_take_drop (t n k : ℕ) :
    (data.drop t).take n ++ (data.drop (t + n)).take k = (data.drop t).take (n + k) := by
  rw [← List.drop_drop, ← List.take_add]

end Loop

/-- **The partial-send loop.**  Either the kernel takes all the bytes offered, or a call takes
none and the loop reports it. -/
lemma sendLoop_cases (s : Socket) (data : Bytes) (t r : ℕ) (h : t + r ≤ data.length) :
    (s.TakesAll r ∧ ∃ m, sendLoop s data t r = (true, s.next m ((data.drop t).take r))) ∨
    ∃ m k, k < r ∧ s.StopsAfter m k ∧
      sendLoop s data t r = (false, s.next (m + 1) ((data.drop t).take k)) := by
  induction r using Nat.strong_induction_on generalizing s t with
  | _ r ih =>
    by_cases hr : r = 0
    · subst hr
      refine .inl ⟨⟨0, fun i hi => absurd hi (Nat.not_lt_zero i), Nat.zero_le _⟩, 0, ?_⟩
      rw [sendLoop, if_pos rfl]
      simp [Socket.next]
    by_cases hcount : s.count 0 = 0
    · refine .inr ⟨0, 0, Nat.pos_of_ne_zero hr, ⟨?_, hcount, rfl⟩, ?_⟩
      · exact fun i hi => absurd hi (Nat.not_lt_zero i)
      · rw [sendLoop_of_count_zero hr hcount, List.take_zero]
    have hpos : 0 < s.count 0 := Nat.pos_of_ne_zero hcount
    rw [sendLoop_of_count_pos hr h hpos]
    set sent := min (s.count 0) r with hsent
    have hle : sent ≤ r := Nat.min_le_right _ r
    -- the rest of the data goes to the socket as it is after this call
    have hrest := ih (r - sent) (by omega) (s.next 1 ((data.drop t).take sent)) (t + sent)
      (by omega)
    rcases hrest with ⟨hall, m, hloop⟩ | ⟨m, k, hk, hstop, hloop⟩
    · refine .inl ⟨hall.succ hpos, 1 + m, ?_⟩
      rw [hloop, Socket.next_next, take_append_take_drop, Nat.add_sub_cancel' hle]
    · have hcount_eq : s.count 0 = sent := by omega
      refine .inr ⟨m + 1, sent + k, by omega, ?_, ?_⟩
      · rw [← hcount_eq]
        exact hstop.succ hpos
      · rw [hloop, Socket.next_next, take_append_take_drop, Nat.add_comm 1, Nat.add_right_comm]

/-- A socket that accepts every byte does not stop. -/
lemma Socket.AcceptsAll.not_stopsAfter {s : Socket} (hs : s.AcceptsAll) (m k : ℕ) :
    ¬ s.StopsAfter m k := by
  rintro ⟨-, hstop, -⟩
  obtain ⟨n, hn⟩ := hs (s.calls + m)
  rw [Socket.count, hn] at hstop
  exact absurd hstop (Nat.succ_ne_zero n)

/-- On a socket that accepts every byte a send loop emits its data whole. -/
lemma sendAll_eq {s : Socket} (hs : s.AcceptsAll) (data : Bytes) :
    ∃ c, sendAll s data = (true, { s with calls := c, wire := s.wire ++ data }) := by
  rcases sendLoop_cases s data 0 data.length (by omega) with ⟨-, m, hloop⟩ | ⟨m, k, -, hstop, -⟩
  · rw [List.drop_zero, List.take_length] at hloop
    exact ⟨s.calls + m, hloop⟩
  · exact absurd hstop (hs.not_stopsAfter m k)

/-! ## One data packet -/

/-- The arguments of one `sendDataPkt` call: `data_size` is an `int`. -/
structure Packet where
  seqNum : UInt64
  data : Bytes
  size_lt : data.length < 2 ^ 31

namespace Packet

/-- The packet as a frame of the wire format. -/
def frame (pkt : Packet) : Frame :=
  .dataPkt pkt.seqNum ⟨pkt.data, by have := pkt.size_lt; omega⟩

/-- The bytes of the packet's `DataPktHeader`. -/
def header (pkt : Packet) : Bytes :=
  [MessageType.dataPkt.toByte] ++ (leBytes 8 pkt.seqNum.toNat ++ leBytes 4 pkt.data.length)

@[simp] lemma length_header (pkt : Packet) : pkt.header.length = 13 := by
  simp [header]

lemma encode_frame (pkt : Packet) : frameCode.encode pkt.frame = pkt.header ++ pkt.data := by
  simp [frameCode, Frame.encode, frame, header, MessageType.toByte]

end Packet

/-- Filling the union's `packet_header` field by field gives the packet's header bytes. -/
lemma read_packetHeader (b : Block 25) (pkt : Packet) :
    ((((b.write 0 [MessageType.dataPkt.toByte] (by simp)).write 1 (leBytes 8 pkt.seqNum.toNat)
      (by simp)).write 9 (leBytes 4 (UInt32.ofNat pkt.data.length).toNat) (by simp)).read 0
        sizeofDataPktHeader (by decide)).1 = pkt.header := by
  have hsize : (UInt32.ofNat pkt.data.length).toNat = pkt.data.length := by
    have := pkt.size_lt
    rw [UInt32.toNat_ofNat', Nat.mod_eq_of_lt (by omega)]
  set b₁ := b.write 0 [MessageType.dataPkt.toByte] (by simp) with hb₁
  set b₂ := b₁.write 1 (leBytes 8 pkt.seqNum.toNat) (by simp) with hb₂
  -- each write is the end of a prefix: peel them off, last one first
  have h₁ : b₁.1.take 1 = [MessageType.dataPkt.toByte] := by
    rw [hb₁, b.take_write _ (by simp), List.take_zero, List.nil_append]
  have h₂ : b₂.1.take 9 = [MessageType.dataPkt.toByte] ++ leBytes 8 pkt.seqNum.toNat := by
    rw [hb₂, b₁.take_write _ (by simp), h₁]
  simp only [Block.read, List.drop_zero]
  rw [b₂.take_write _ (by simp), h₂, hsize, List.append_assoc, Packet.header]

/-- **What one `sendDataPkt` call emits**: the header twice, then the payload. -/
lemma sendDataPkt_eq {s : Socket} (hs : s.AcceptsAll) (msg : ParsedMessage) (pkt : Packet) :
    ∃ c, (sendDataPkt msg pkt.seqNum pkt.data s).2 =
      { s with calls := c, wire := s.wire ++ (pkt.header ++ (pkt.header ++ pkt.data)) } := by
  obtain ⟨c₁, h₁⟩ := sendAll_eq hs pkt.header
  obtain ⟨c₂, h₂⟩ := sendAll_eq
    (s := { s with calls := c₁, wire := s.wire ++ pkt.header }) hs pkt.header
  obtain ⟨c₃, h₃⟩ := sendAll_eq
    (s := { s with calls := c₂, wire := s.wire ++ pkt.header ++ pkt.header }) hs pkt.data
  refine ⟨c₃, ?_⟩
  rw [sendAll] at h₃
  simp only [sendDataPkt, sendPacketPayload, read_packetHeader, h₁, h₂]
  rw [h₃]
  simp only [List.append_assoc]

/-! ## A list of packets -/

/-- `sendDataPkt` called once for each packet, in order, with the same message object. -/
def sendDataPkts (msg : ParsedMessage) : List Packet → Socket → ParsedMessage × Socket
  | [], s => (msg, s)
  | pkt :: pkts, s =>
    let (msg, s) := sendDataPkt msg pkt.seqNum pkt.data s
    sendDataPkts msg pkts s

/-- The stream the wire format asks for: one frame per packet. -/
def packetStream (pkts : List Packet) : Bytes := frameCode.encodeAll (pkts.map Packet.frame)

lemma sendDataPkts_wire {s : Socket} (hs : s.AcceptsAll) (msg : ParsedMessage)
    (pkts : List Packet) :
    (sendDataPkts msg pkts s).2.wire =
      s.wire ++ pkts.flatMap fun pkt => pkt.header ++ (pkt.header ++ pkt.data) := by
  induction pkts generalizing msg s with
  | nil => simp [sendDataPkts]
  | cons pkt pkts ih =>
    obtain ⟨c, hsend⟩ := sendDataPkt_eq hs msg pkt
    have htail := ih (s := (sendDataPkt msg pkt.seqNum pkt.data s).2)
      (by rw [hsend]; exact hs) (sendDataPkt msg pkt.seqNum pkt.data s).1
    rw [sendDataPkts, htail, hsend, List.flatMap_cons, List.append_assoc]

/-- The second copy of each header is 13 bytes too many. -/
lemma length_wire {s : Socket} (hs : s.AcceptsAll) (msg : ParsedMessage) (pkts : List Packet) :
    (sendDataPkts msg pkts s).2.wire.length =
      s.wire.length + (packetStream pkts).length + 13 * pkts.length := by
  rw [sendDataPkts_wire hs, List.length_append]
  induction pkts with
  | nil => simp [packetStream]
  | cons pkt pkts ih =>
    simp only [List.flatMap_cons, List.length_append, packetStream, List.map_cons,
      FrameCode.encodeAll_cons, Packet.encode_frame, Packet.length_header,
      List.length_cons] at ih ⊢
    omega

/-! ## The receiver's half -/

/-- Successive `tryParseMessage` calls, one for each result object. -/
def tryParseMessages : List ParsedMessage → MessageParser →
    Except Fault (List (Bool × ParsedMessage) × MessageParser)
  | [], p => .ok ([], p)
  | result :: results, p => do
    let (parsed, p, result) ← p.tryParseMessage result
    let (outs, p) ← tryParseMessages results p
    return ((parsed, result) :: outs, p)

/-- **The decoder stays in step**: with a stream of frames buffered behind the cursor, as many
calls as there are frames return exactly those and end at the end of the buffer. -/
lemma tryParseMessages_encodeAll (frames : List Frame) (p : MessageParser)
    (hp : p.parsedBytes ≤ p.recvBuffer.length)
    (hbuf : p.unparsed = frameCode.encodeAll frames)
    (results : List ParsedMessage) (hlen : results.length = frames.length) :
    ∃ outs p', tryParseMessages results p = .ok (outs, p') ∧
      outs.map (fun o => (o.1, o.2.toFrame)) = frames.map (fun f => (true, some f)) ∧
      p'.parsedBytes = p.recvBuffer.length := by
  induction frames generalizing p results with
  | nil =>
    rw [List.length_eq_zero_iff.mp hlen]
    refine ⟨[], p, rfl, rfl, ?_⟩
    have hdrop : p.unparsed.length = 0 := by rw [hbuf]; rfl
    rw [unparsed, List.length_drop] at hdrop
    omega
  | cons f frames ih =>
    cases results with
    | nil => simp at hlen
    | cons result results =>
      have hdec : Frame.decode p.unparsed = some (f, (frameCode.encode f).length) := by
        rw [hbuf, FrameCode.encodeAll_cons]
        exact frameCode.decode_encode_append f _
      obtain ⟨result', hparse, hframe⟩ :=
        tryParseMessage_of_decode_some result hp hdec
      have hrest : (p.advance (frameCode.encode f).length).unparsed =
          frameCode.encodeAll frames := by
        rw [unparsed, advance, ← List.drop_drop, ← unparsed, hbuf, FrameCode.encodeAll_cons,
          List.drop_left]
      have hin : (p.advance (frameCode.encode f).length).parsedBytes ≤ p.recvBuffer.length := by
        have hlength : p.unparsed.length =
            (frameCode.encode f).length + (frameCode.encodeAll frames).length := by
          rw [hbuf, FrameCode.encodeAll_cons, List.length_append]
        rw [unparsed, List.length_drop] at hlength
        simp only [advance]
        omega
      obtain ⟨outs, p', hrun, houts, hend⟩ := ih (p.advance (frameCode.encode f).length) hin
        hrest results (by simpa using hlen)
      refine ⟨(true, result') :: outs, p', ?_, ?_, hend⟩
      · simp only [tryParseMessages, hparse, bind, Except.bind, hrun]
        rfl
      · simp only [List.map_cons, hframe, houts]

/-! ## The round trip -/

/-- The packets round-trip over these wire bytes: the bytes are one frame per packet, and a
fresh parser that has buffered them returns the packets and ends at the end of its buffer. -/
def RoundTrips (pkts : List Packet) (wire : Bytes) : Prop :=
  wire = packetStream pkts ∧
    ∀ results : List ParsedMessage, results.length = pkts.length →
      ∃ outs p', tryParseMessages results { MessageParser.new with recvBuffer := wire } =
          .ok (outs, p') ∧
        outs.map (fun o => (o.1, o.2.toFrame)) = pkts.map (fun pkt => (true, some pkt.frame)) ∧
        p'.parsedBytes = wire.length

/-- **Only the empty list of packets round-trips**, whatever sizes the partial sends have. -/
theorem roundTrips_iff (pkts : List Packet) (msg : ParsedMessage) (s : Socket)
    (hs : s.AcceptsAll) (hwire : s.wire = []) :
    RoundTrips pkts (sendDataPkts msg pkts s).2.wire ↔ pkts = [] := by
  constructor
  · rintro ⟨hstream, -⟩
    have hlen := length_wire hs msg pkts
    rw [hwire, hstream, List.length_nil] at hlen
    exact List.length_eq_zero_iff.mp (by omega)
  · rintro rfl
    have hnil : (sendDataPkts msg [] s).2.wire = packetStream [] := by
      simpa [sendDataPkts, packetStream] using hwire
    refine ⟨hnil, fun results hresults => ?_⟩
    rw [hnil]
    exact tryParseMessages_encodeAll [] _ (Nat.zero_le _) rfl results hresults

/-- A socket that takes one byte at a time, before anything was sent. -/
def byteSocket : Socket := ⟨fun _ => .accept 1, 0, []⟩

/-- Two packets, one of them empty, sent one byte at a time. -/
theorem roundTrips_iff_two_packets :
    ¬ RoundTrips [⟨7, [1, 2, 3], by decide⟩, ⟨8, [], by decide⟩]
      (sendDataPkts { blankMessage with type := .dataPkt, packetData := [42] }
        [⟨7, [1, 2, 3], by decide⟩, ⟨8, [], by decide⟩] byteSocket).2.wire := by
  rw [roundTrips_iff _ _ byteSocket (fun _ => ⟨0, rfl⟩) rfl]
  exact List.cons_ne_nil _ _

/-- One empty packet does not round-trip: 26 bytes go out for its 13-byte frame. -/
theorem not_roundTrips_empty_packet :
    ¬ ∀ (pkts : List Packet) (msg : ParsedMessage) (s : Socket), s.AcceptsAll → s.wire = [] →
      RoundTrips pkts (sendDataPkts msg pkts s).2.wire := by
  intro hall
  have hs : byteSocket.AcceptsAll := fun _ => ⟨0, rfl⟩
  obtain ⟨hstream, -⟩ := hall [⟨7, [], by decide⟩]
    blankMessage byteSocket hs rfl
  have hlen := length_wire hs blankMessage
    [⟨7, [], by decide⟩]
  rw [hstream] at hlen
  exact absurd hlen (by decide)

end ClientServer.Netlib
