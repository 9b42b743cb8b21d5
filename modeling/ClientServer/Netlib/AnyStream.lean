import ClientServer.Library.Scanning
import ClientServer.Netlib.Grammar
import ClientServer.Netlib.Handshake
import ClientServer.Netlib.ReadPath

/-!
# The receive path on arbitrary bytes

A peer need not send frames.  `frameScanner` is what `tryParseMessage` does in front of any bytes:
it takes the frame that stands there, skips a byte that starts none, or waits.  What it takes is
settled by the bytes taken (`frameScanner.next_append`), so `readMessage` is independent of how the
bytes arrive: whatever the pieces, the timeouts and the arguments of the calls, and whatever was
sent, the messages returned are a prefix of `frameScanner.items` of the bytes received
(`readMessages_prefix_items`).

The last section puts a sender in front of it.  Handshake messages are read as they were put on the
wire, and the data packet behind them with its header twice: its payload is read 13 bytes early.
-/

namespace ClientServer.Netlib

open MessageParser

/-! ## What is taken for a frame is that frame's encoding -/

namespace Frame

variable {bs : Bytes} {f : Frame} {n : ℕ}

/-- A field of a prefix, read from the bytes. -/
lemma read_prefixBlock {k : ℕ} (h : k ≤ bs.length) (off len : ℕ) (hread : off + len ≤ k) :
    ((prefixBlock bs k h).read off len hread).1 = (bs.drop off).take len := by
  simp only [Block.read, prefixBlock, List.drop_take, List.take_take]
  rw [min_eq_left (by omega)]

/-- The bytes of a little-endian field. -/
lemma leBytes_of_length {w : ℕ} (h : bs.length = w) : leBytes w (leValue bs) = bs := by
  rw [← h]
  exact leBytes_leValue bs

lemma length_drop_take {off k : ℕ} (h : off + k ≤ bs.length) :
    ((bs.drop off).take k).length = k := by
  rw [List.length_take, List.length_drop]
  omega

lemma leBytes_uint64 {off : ℕ} (h : off + 8 ≤ bs.length) :
    leBytes 8 (UInt64.ofNat (leValue ((bs.drop off).take 8))).toNat = (bs.drop off).take 8 := by
  have hlength := length_drop_take h
  have hlt : leValue ((bs.drop off).take 8) < 2 ^ 64 := by
    have hbound := leValue_lt ((bs.drop off).take 8)
    rw [hlength] at hbound
    exact hbound
  rw [UInt64.toNat_ofNat', Nat.mod_eq_of_lt hlt, leBytes_of_length hlength]

/-- **What is accepted is well formed**: the bytes taken are the encoding of the frame they are
taken for. -/
lemma encode_of_decode (h : decode bs = some (f, n)) : n ≤ bs.length ∧ encode f = bs.take n := by
  have hfirst (k : ℕ) : bs.take 1 ++ (bs.drop 1).take k = bs.take (1 + k) := List.take_add.symm
  rw [decode] at h
  split_ifs at h with h1 hlen h2 hlen h3 hlen
  · cases h
    refine ⟨hlen, ?_⟩
    rw [encode, AuthRequest.ofBlock, read_prefixBlock hlen, ← h1, hfirst 16]
  · cases h
    refine ⟨hlen, ?_⟩
    simp only [encode, AuthResponse.ofBlock, read_prefixBlock hlen]
    rw [leBytes_uint64 hlen, ← h2, take_append_take_drop 1 16 8, hfirst 24]
  · simp only at h
    split_ifs at h with hsize
    cases h
    refine ⟨hsize, ?_⟩
    have hvalue := MessageType.dataSize_prefixBlock hlen
    simp only [encode]
    generalize (DataPktHeader.ofBlock (prefixBlock bs 13 hlen)).dataSize.toNat = size at *
    have hpayload : ((bs.drop 13).take size).length = size := length_drop_take hsize
    have hfield : leBytes 4 size = (bs.drop 9).take 4 := by
      rw [hvalue, leBytes_of_length (length_drop_take (by omega))]
    simp only [DataPktHeader.ofBlock, read_prefixBlock hlen, hpayload]
    rw [hfield, leBytes_uint64 (by omega), take_append_take_drop 9 4 size,
      take_append_take_drop 1 8 (4 + size), ← h3, hfirst, ← Nat.add_assoc, ← Nat.add_assoc]

/-- More bytes behind a frame do not change it. -/
lemma decode_append (h : decode bs = some (f, n)) (more : Bytes) :
    decode (bs ++ more) = some (f, n) := by
  obtain ⟨hle, hencode⟩ := encode_of_decode h
  have hlength : (encode f).length = n := by
    rw [hencode, List.length_take]
    omega
  have hsplit : bs ++ more = encode f ++ (bs.drop n ++ more) := by
    rw [hencode, ← List.append_assoc, List.take_append_drop]
  rw [hsplit, decode_encode_append, hlength]

end Frame

/-! ## Any bytes in front of the parser -/

/-- What `tryParseMessage` takes of the bytes in front of it. -/
def scan (bs : Bytes) : Option (Option Frame × ℕ) :=
  match Frame.decode bs with
  | some (f, n) => some (some f, n)
  | none => if skipped bs = 0 then none else some (none, skipped bs)

section Scan

variable {bs : Bytes} {f : Frame} {o : Option Frame} {n : ℕ}

lemma scan_of_decode (h : Frame.decode bs = some (f, n)) : scan bs = some (some f, n) := by
  rw [scan, h]

lemma scan_of_skipped (h : Frame.decode bs = none) (hskip : skipped bs ≠ 0) :
    scan bs = some (none, skipped bs) := by
  rw [scan, h]
  exact if_neg hskip

lemma scan_eq_none (h : Frame.decode bs = none) (hskip : skipped bs = 0) : scan bs = none := by
  rw [scan, h]
  exact if_pos hskip

/-- What is taken is a frame, or a byte that starts none. -/
lemma scan_cases (h : scan bs = some (o, n)) :
    (∃ f, o = some f ∧ Frame.decode bs = some (f, n)) ∨
      (o = none ∧ Frame.decode bs = none ∧ skipped bs ≠ 0 ∧ n = skipped bs) := by
  cases hdecode : Frame.decode bs with
  | some d =>
    obtain ⟨f, m⟩ := d
    rw [scan_of_decode hdecode] at h
    cases h
    exact .inl ⟨f, rfl, rfl⟩
  | none =>
    by_cases hskip : skipped bs = 0
    · rw [scan_eq_none hdecode hskip] at h
      cases h
    · rw [scan_of_skipped hdecode hskip] at h
      cases h
      exact .inr ⟨rfl, rfl, hskip, rfl⟩

/-- A byte that is skipped starts no frame, whatever comes behind it. -/
lemma skip_append (hskip : skipped bs ≠ 0) (more : Bytes) :
    Frame.decode (bs ++ more) = none ∧ skipped (bs ++ more) = skipped bs := by
  obtain ⟨hne, h1, h2, h3⟩ : bs ≠ [] ∧ bs.take 1 ≠ [1] ∧ bs.take 1 ≠ [2] ∧ bs.take 1 ≠ [3] := by
    rw [skipped] at hskip
    split_ifs at hskip with hwait
    · exact absurd rfl hskip
    · simpa only [not_or] using hwait
  have hfirst : (bs ++ more).take 1 = bs.take 1 :=
    List.take_append_of_le_length (List.length_pos_iff.mpr hne)
  constructor
  · rw [Frame.decode, hfirst, if_neg h1, if_neg h2, if_neg h3]
  · rw [skipped, skipped, hfirst, if_neg (by simp [hne, h1, h2, h3]),
      if_neg (by simp [hne, h1, h2, h3])]

end Scan

/-- `tryParseMessage` as a reader of arbitrary bytes. -/
def frameScanner : Scanner Frame UInt8 where
  next := scan
  next_pos bs o n h := by
    rcases scan_cases h with ⟨f, -, hdecode⟩ | ⟨-, -, hskip, rfl⟩
    · have hencode := (Frame.encode_of_decode hdecode).2
      have hpos := frameCode.length_encode_pos f
      rw [show frameCode.encode f = bs.take n from hencode, List.length_take] at hpos
      omega
    · exact Nat.pos_of_ne_zero hskip
  next_le_length bs o n h := by
    rcases scan_cases h with ⟨f, -, hdecode⟩ | ⟨-, -, -, rfl⟩
    · exact (Frame.encode_of_decode hdecode).1
    · exact skipped_le_length bs
  next_append bs o n more h := by
    rcases scan_cases h with ⟨f, rfl, hdecode⟩ | ⟨rfl, -, hskip, rfl⟩
    · exact scan_of_decode (Frame.decode_append hdecode more)
    · obtain ⟨hdecode, hsame⟩ := skip_append hskip more
      rw [scan_of_skipped hdecode (by rw [hsame]; exact hskip), hsame]

/-- Frames are read as they were encoded. -/
lemma items_encodeAll_append (frames : List Frame) (more : Bytes) :
    frameScanner.items (frameCode.encodeAll frames ++ more) =
      frames ++ frameScanner.items more := by
  induction frames with
  | nil => rfl
  | cons f frames ih =>
    have hnext : frameScanner.next (frameCode.encode f ++ (frameCode.encodeAll frames ++ more)) =
        some (some f, (frameCode.encode f).length) :=
      scan_of_decode (frameCode.decode_encode_append f _)
    rw [FrameCode.encodeAll_cons, List.append_assoc, frameScanner.items_of_some hnext,
      List.drop_left, ih]
    rfl

/-! ## One turn of the loop -/

section Attempt

variable {p : MessageParser}

lemma unparsed_advance (n : ℕ) : (p.advance n).unparsed = p.unparsed.drop n := by
  rw [unparsed, unparsed, advance, ← List.drop_drop]

/-- One `tryParseMessage` is one step of the scanner. -/
lemma tryParseMessage_scan (hp : p.parsedBytes ≤ p.recvBuffer.length) (result : ParsedMessage) :
    (∃ f n result', p.tryParseMessage result = .ok (true, p.advance n, result') ∧
      result'.toFrame = some f ∧ n ≤ p.unparsed.length ∧
      ∀ more, frameScanner.items (p.unparsed ++ more) =
        f :: frameScanner.items ((p.advance n).unparsed ++ more)) ∨
    (∃ n, p.tryParseMessage result = .ok (false, p.advance n, result) ∧
      n ≤ p.unparsed.length ∧
      ∀ more, frameScanner.items (p.unparsed ++ more) =
        frameScanner.items ((p.advance n).unparsed ++ more)) := by
  cases hdecode : Frame.decode p.unparsed with
  | some d =>
    obtain ⟨f, n⟩ := d
    obtain ⟨result', hparse, hframe⟩ := tryParseMessage_of_decode_some result hp hdecode
    refine .inl ⟨f, n, result', hparse, hframe, (Frame.encode_of_decode hdecode).1, ?_⟩
    intro more
    rw [frameScanner.items_append_of_some (scan_of_decode hdecode), unparsed_advance]
    rfl
  | none =>
    have hparse := tryParseMessage_of_decode_none result hp hdecode
    refine .inr ⟨_, hparse, skipped_le_length _, fun more => ?_⟩
    rw [unparsed_advance]
    by_cases hskip : skipped p.unparsed = 0
    · rw [hskip, List.drop_zero]
    · rw [frameScanner.items_append_of_some (scan_of_skipped hdecode hskip)]
      rfl

end Attempt

/-! ## Whatever arrives, however it is cut up -/

/-- The run lemma: what is returned comes first among the items still to be read. -/
lemma messages_prefix_items (answers : List RecvAnswer) :
    ∀ (calls : List (Bool × ParsedMessage)) {p : MessageParser},
      p.parsedBytes ≤ p.recvBuffer.length → p.isTimeout = false →
      ∃ outs frames, readMessages calls p answers = .ok outs ∧ messages outs = frames.map some ∧
        frames <+: frameScanner.items (p.unparsed ++ received answers) := by
  induction answers with
  | nil =>
    intro calls p _ _
    exact ⟨[], [], readMessages_nil, rfl, List.nil_prefix⟩
  | cons answer answers ih =>
    rintro (_ | ⟨⟨wait, result⟩, calls⟩) p hp htimeout
    · exact ⟨[], [], rfl, rfl, List.nil_prefix⟩
    -- a call that ends without a message adds a `false` and nothing else
    have hfalse : received answers = received (answer :: answers) →
        ∃ outs frames, (readMessages calls p answers).map ((false, result) :: ·) = .ok outs ∧
          messages outs = frames.map some ∧
          frames <+: frameScanner.items (p.unparsed ++ received (answer :: answers)) := by
      intro heq
      obtain ⟨outs, frames, hrun, hframes, hprefix⟩ := ih calls hp htimeout
      rw [heq] at hprefix
      exact ⟨(false, result) :: outs, frames, by rw [hrun]; rfl, by simpa [messages] using hframes,
        hprefix⟩
    cases answer with
    | closed =>
      rw [readMessages_ended (Or.inl rfl)]
      exact hfalse rfl
    | failed =>
      rw [readMessages_ended (Or.inr rfl)]
      exact hfalse rfl
    | wouldBlock =>
      rw [readMessages_timeout htimeout]
      split_ifs with hwait
      · exact ih ((wait, result) :: calls) hp htimeout
      · exact hfalse rfl
    | received piece =>
      set q : MessageParser := { p with recvBuffer := p.recvBuffer ++ piece.1 } with hq
      have hin : q.parsedBytes ≤ q.recvBuffer.length := by
        rw [hq, List.length_append]
        exact hp.trans (Nat.le_add_right _ _)
      have hstream : p.unparsed ++ received (.received piece :: answers) =
          q.unparsed ++ received answers := by
        rw [hq, unparsed_append hp, received, List.append_assoc]
      rw [hstream]
      rcases tryParseMessage_scan hin result with
        ⟨f, n, result', hparse, hframe, hn, hitems⟩ | ⟨n, hparse, hn, hitems⟩
      · obtain ⟨outs, frames, hrun, hframes, hprefix⟩ :=
          ih calls (advance_inRange hin hn) htimeout
        refine ⟨(true, result') :: outs, f :: frames, ?_, ?_, ?_⟩
        · rw [readMessages_received htimeout hparse, hrun]
          rfl
        · simpa [messages, hframe] using hframes
        · rw [hitems]
          exact (List.prefix_cons_inj f).mpr hprefix
      · obtain ⟨outs, frames, hrun, hframes, hprefix⟩ :=
          ih ((wait, result) :: calls) (advance_inRange hin hn) htimeout
        refine ⟨outs, frames, ?_, hframes, by rw [hitems]; exact hprefix⟩
        rw [readMessages_incomplete htimeout hparse, hrun]

/-- **Reading does not depend on how the bytes arrive**, and no read leaves the buffer.  Whatever
bytes a peer sends, in pieces of any sizes with timeouts anywhere between them, and wherever the
stream stops or fails, the messages returned are the first items of the bytes received, and their
encodings stand there, each in one piece and one behind another. -/
theorem readMessages_prefix_items (answers : List RecvAnswer)
    (calls : List (Bool × ParsedMessage)) :
    ∃ outs frames, readMessages calls MessageParser.new answers = .ok outs ∧
      messages outs = frames.map some ∧ frames <+: frameScanner.items (received answers) ∧
      InOrder (frames.map frameCode.encode) (received answers) := by
  obtain ⟨outs, frames, hrun, hframes, hprefix⟩ :=
    messages_prefix_items answers calls (p := MessageParser.new) (le_refl 0) rfl
  have hstream : MessageParser.new.unparsed ++ received answers = received answers := rfl
  rw [hstream] at hprefix
  refine ⟨outs, frames, hrun, hframes, hprefix, ?_⟩
  have hcode : ∀ bs f n, frameScanner.next bs = some (some f, n) → Frame.encode f = bs.take n := by
    intro bs f n hnext
    rcases scan_cases hnext with ⟨f', hf, hdecode⟩ | ⟨hf, -⟩
    · cases hf
      exact (Frame.encode_of_decode hdecode).2
    · cases hf
  obtain ⟨later, hlater⟩ := hprefix
  have hitems := frameScanner.inOrder_items Frame.encode hcode (received answers)
  rw [← hlater, List.map_append] at hitems
  exact hitems.of_append

/-! ## A session -/

/-- What a sender calls. -/
inductive Sending
  | handshake (h : Handshake)
  | packet (pkt : Packet)

namespace Sending

/-- The call. -/
def send (m : Sending) (msg : ParsedMessage) (s : Socket) : ParsedMessage × Socket :=
  match m with
  | .handshake h => h.send msg s
  | .packet pkt => sendDataPkt msg pkt.seqNum pkt.data s

/-- The calls in order, with the same message object. -/
def sendEach : List Sending → ParsedMessage → Socket → ParsedMessage × Socket
  | [], msg, s => (msg, s)
  | m :: ms, msg, s =>
    let (msg, s) := m.send msg s
    sendEach ms msg s

/-- What a call puts on the wire. -/
def bytes : Sending → Bytes
  | .handshake h => frameCode.encode h.sentFrame
  | .packet pkt => pkt.header ++ (pkt.header ++ pkt.data)

end Sending

namespace Packet

/-- As many bytes as the payload has, from the second copy of the header on. -/
def shiftedData (pkt : Packet) : Bytes := (pkt.header ++ pkt.data).take pkt.data.length

/-- What stands behind them. -/
def leftover (pkt : Packet) : Bytes := (pkt.header ++ pkt.data).drop pkt.data.length

@[simp] lemma length_shiftedData (pkt : Packet) : pkt.shiftedData.length = pkt.data.length := by
  rw [shiftedData, List.length_take, List.length_append]
  omega

lemma length_shiftedData_lt (pkt : Packet) : pkt.shiftedData.length < 2 ^ 32 := by
  have := pkt.size_lt
  rw [length_shiftedData]
  omega

lemma shiftedData_append_leftover (pkt : Packet) :
    pkt.shiftedData ++ pkt.leftover = pkt.header ++ pkt.data := List.take_append_drop _ _

/-- The packet that is read first of what `sendDataPkt` sends: its payload begins with the second
copy of the header. -/
def received (pkt : Packet) : Frame :=
  .dataPkt pkt.seqNum ⟨pkt.shiftedData, pkt.length_shiftedData_lt⟩

lemma encode_received (pkt : Packet) :
    frameCode.encode pkt.received = pkt.header ++ pkt.shiftedData := by
  simp only [frameCode, Frame.encode, received, length_shiftedData, header, MessageType.toByte,
    List.append_assoc]

lemma received_eq_frame_iff (pkt : Packet) :
    pkt.received = pkt.frame ↔ pkt.data <+: pkt.header ++ pkt.data := by
  rw [List.prefix_iff_eq_take, received, frame, Frame.dataPkt.injEq, Subtype.mk.injEq,
    and_iff_right rfl, eq_comm, shiftedData]

end Packet

section Session

variable {s : Socket}

lemma send_eq (hs : s.AcceptsAll) (m : Sending) (msg : ParsedMessage) :
    ∃ c, (m.send msg s).2 = { s with calls := c, wire := s.wire ++ m.bytes } := by
  cases m with
  | packet pkt => exact sendDataPkt_eq hs msg pkt
  | handshake h =>
    cases h with
    | request uuid =>
      obtain ⟨c, hc⟩ := sendAll_eq hs (frameCode.encode (.authRequest uuid))
      refine ⟨c, ?_⟩
      simp only [Sending.send, Handshake.send, sendAuthRequest, Handshake.read_authRequest, hc,
        Sending.bytes, Handshake.sentFrame]
    | response uuid restoreSeqNum =>
      obtain ⟨c, hc⟩ := sendAll_eq hs (frameCode.encode (.authResponse uuid 0))
      refine ⟨c, ?_⟩
      simp only [Sending.send, Handshake.send, sendAuthResponce, Handshake.read_authResponse, hc,
        Sending.bytes, Handshake.sentFrame]

lemma sendEach_wire (hs : s.AcceptsAll) (ms : List Sending) (msg : ParsedMessage) :
    (Sending.sendEach ms msg s).2.wire = s.wire ++ ms.flatMap Sending.bytes := by
  induction ms generalizing msg s with
  | nil => simp [Sending.sendEach]
  | cons m ms ih =>
    obtain ⟨c, hsend⟩ := send_eq hs m msg
    have htail := ih (s := (m.send msg s).2) (by rw [hsend]; exact hs) (m.send msg s).1
    rw [Sending.sendEach, htail, hsend, List.flatMap_cons, List.append_assoc]

/-- Handshake messages are sent as frames. -/
lemma flatMap_handshakes (hs : List Handshake) :
    (hs.map Sending.handshake).flatMap Sending.bytes =
      frameCode.encodeAll (hs.map Handshake.sentFrame) := by
  rw [FrameCode.encodeAll, List.flatMap_map, List.flatMap_map]
  rfl

/-- What is read of one packet: its sequence number, a payload that begins with the header, and
then the last 13 bytes sent are read as if they were messages. -/
lemma items_packet (pkt : Packet) (more : Bytes) :
    frameScanner.items ((Sending.packet pkt).bytes ++ more) =
      pkt.received :: frameScanner.items (pkt.leftover ++ more) := by
  have hsplit : (Sending.packet pkt).bytes ++ more =
      frameCode.encodeAll [pkt.received] ++ (pkt.leftover ++ more) := by
    rw [FrameCode.encodeAll_cons, FrameCode.encodeAll_nil, List.append_nil,
      pkt.encode_received, Sending.bytes, ← pkt.shiftedData_append_leftover]
    simp only [List.append_assoc]
  rw [hsplit, items_encodeAll_append]
  rfl

/-- The first messages read are the handshake messages as they were sent, and then the packet. -/
def ReadsSession (handshakes : List Handshake) (pkt : Packet) (answers : List RecvAnswer)
    (calls : List (Bool × ParsedMessage)) : Prop :=
  ∃ outs, readMessages calls MessageParser.new answers = .ok outs ∧
    (messages outs).take (handshakes.length + 1) <+:
      (handshakes.map Handshake.sentFrame ++ [pkt.received]).map some

/-- **A session.**  Any handshake messages, then a data packet, then anything: the receiver reads
the handshake messages as they were put on the wire, and then the sequence number of the packet
with a payload that begins with a copy of its header.  That is the packet's own payload only if the
payload happens to repeat the header. -/
theorem readsSession (handshakes : List Handshake) (pkt : Packet) (later : List Sending)
    (msg : ParsedMessage) (s : Socket) (hs : s.AcceptsAll) (hwire : s.wire = [])
    (answers : List RecvAnswer) (calls : List (Bool × ParsedMessage))
    (hreceived : received answers <+: (Sending.sendEach
      (handshakes.map Sending.handshake ++ Sending.packet pkt :: later) msg s).2.wire) :
    ReadsSession handshakes pkt answers calls ∧
      (pkt.received = pkt.frame ↔ pkt.data <+: pkt.header ++ pkt.data) := by
  refine ⟨?_, pkt.received_eq_frame_iff⟩
  obtain ⟨outs, frames, hrun, hframes, hprefix⟩ :=
    messages_prefix_items answers calls (p := MessageParser.new) (le_refl 0) rfl
  refine ⟨outs, hrun, ?_⟩
  set first := handshakes.map Handshake.sentFrame ++ [pkt.received] with hfirst
  have hlength : first.length = handshakes.length + 1 := by
    rw [hfirst, List.length_append, List.length_map, List.length_singleton]
  -- the items of the wire begin with the handshake messages and the packet
  rw [sendEach_wire hs, hwire, List.nil_append, List.flatMap_append, flatMap_handshakes,
    List.flatMap_cons] at hreceived
  have hitems := hprefix.trans (frameScanner.items_prefix hreceived)
  rw [items_encodeAll_append, items_packet, ← List.singleton_append, ← List.append_assoc,
    ← hfirst] at hitems
  rw [hframes, ← List.map_take, ← hlength]
  refine List.IsPrefix.map some ?_
  have htake := hitems.take first.length
  rwa [List.take_left] at htake

/-- A request and a packet of one byte, sent one byte at a time; the request has arrived. -/
theorem readsSession_request :
    ReadsSession [.request Handshake.zeroUuid] ⟨7, [42], by decide⟩
        [.received ⟨1 :: List.replicate 16 0, by decide⟩] [(true, blankMessage)] ∧
      ((⟨7, [42], by decide⟩ : Packet).received = (⟨7, [42], by decide⟩ : Packet).frame ↔
        [42] <+: (⟨7, [42], by decide⟩ : Packet).header ++ [42]) :=
  readsSession _ _ [] blankMessage byteSocket (fun _ => ⟨0, rfl⟩) rfl _ _
    (by rw [sendEach_wire fun _ => ⟨0, rfl⟩]; decide)

end Session

end ClientServer.Netlib
