import ClientServer.Netlib.WireFormat

/-!
# What `tryParseMessage` accepts

On every buffer whose cursor is in range, `tryParseMessage` never reads out of bounds and agrees
with `Frame.decode` on the unparsed bytes: where a whole frame stands there it returns that
frame and advances by its length, and otherwise it leaves the result object alone and the cursor
where it is, except that a first byte that starts no frame is skipped.

`ParsedMessage.toFrame` reads a result object as the message it carries, and only where its
parts agree: the type byte of the union member with `type`, the announced with the actual
payload length.  So an equation `m.toFrame = some f` fixes every field of `m` that a message
of that type has.
-/

namespace ClientServer.Netlib

open ClientServer.Netlib.Frame

/-- The message a result object carries. -/
def ParsedMessage.toFrame (m : ParsedMessage) : Option Frame :=
  match m.type with
  | .authRequest =>
    if m.authRequest.type = MessageType.authRequest.toByte then
      some (.authRequest m.authRequest.clientUuid)
    else none
  | .authResponse =>
    if m.authResponse.type = MessageType.authResponse.toByte then
      some (.authResponse m.authResponse.clientUuid m.authResponse.restoreSeqNum)
    else none
  | .dataPkt =>
    if h : m.packetHeader.type = MessageType.dataPkt.toByte ∧
        m.packetData.length = m.packetHeader.dataSize.toNat then
      some (.dataPkt m.packetHeader.seqNum
        ⟨m.packetData, by rw [h.2]; exact m.packetHeader.dataSize.toNat_lt⟩)
    else none

namespace MessageType

/-- The size of the struct that starts a message of this type. -/
def headerSize : MessageType → ℕ
  | .authRequest => sizeofAuthRequest
  | .authResponse => sizeofAuthResponse
  | .dataPkt => sizeofDataPktHeader

lemma headerSize_le (type : MessageType) : type.headerSize ≤ 25 := by
  cases type <;> decide

end MessageType

/-- What a parse function makes of the result object for a message with these bytes: the header
goes into the union, and the payload of a data packet into `packet_data`. -/
def ParsedMessage.store (m : ParsedMessage) (type : MessageType) (bytes : Bytes) :
    ParsedMessage :=
  { m with
    type := type
    fields := m.fields.write 0 (bytes.take type.headerSize) (by
      have := type.headerSize_le
      rw [List.length_take]
      omega)
    packetData := if type = .dataPkt then bytes.drop type.headerSize else m.packetData }

/-- The header of a message is the header of what begins with the message. -/
lemma take_take_eq_prefixBlock {bs : Bytes} {k n : ℕ} (hk : k ≤ n) (h : k ≤ bs.length) :
    (bs.take n).take k = (prefixBlock bs k h).1 := by
  rw [List.take_take, min_eq_left hk]
  rfl

/-- The union holds the header just stored. -/
lemma ParsedMessage.read_store (m : ParsedMessage) (type : MessageType) {bytes : Bytes}
    (h : type.headerSize ≤ bytes.length) (hread : 0 + type.headerSize ≤ 25) :
    (m.store type bytes).fields.read 0 type.headerSize hread = prefixBlock bytes _ h :=
  m.fields.read_write_zero (prefixBlock bytes _ h)
    (by rw [(prefixBlock bytes _ h).2, Nat.zero_add]; exact type.headerSize_le) hread

/-- The union holds the header of the message that `n` bytes were stored of. -/
lemma ParsedMessage.read_store_take (m : ParsedMessage) (type : MessageType) {bs : Bytes}
    {n : ℕ} (hn : type.headerSize ≤ n) (h : type.headerSize ≤ bs.length)
    (hread : 0 + type.headerSize ≤ 25) :
    (m.store type (bs.take n)).fields.read 0 type.headerSize hread = prefixBlock bs _ h := by
  have hlen : type.headerSize ≤ (bs.take n).length := by
    rw [List.length_take]
    exact le_min hn h
  rw [m.read_store type hlen hread]
  exact Subtype.ext (take_take_eq_prefixBlock hn h)

/-- A result object that no call has written yet. -/
def blankMessage : ParsedMessage := ⟨.authRequest, 0, ⟨List.replicate 25 0, rfl⟩, []⟩

namespace MessageParser

variable {p : MessageParser} {result : ParsedMessage}

/-- The buffered bytes behind the cursor. -/
def unparsed (p : MessageParser) : Bytes := p.recvBuffer.drop p.parsedBytes

/-- The parser moved `n` bytes on. -/
def advance (p : MessageParser) (n : ℕ) : MessageParser :=
  { p with parsedBytes := p.parsedBytes + n }

lemma unparsedSize_eq (hp : p.parsedBytes ≤ p.recvBuffer.length) :
    p.unparsedSize = p.unparsed.length := by
  rw [unparsedSize, subSize, if_pos hp, unparsed, List.length_drop]

/-! ## Reads of the buffer -/

lemma peek_unparsed (hp : p.parsedBytes ≤ p.recvBuffer.length) {n : ℕ}
    (h : n ≤ p.unparsed.length) :
    peek p.recvBuffer p.parsedBytes n = .ok (prefixBlock p.unparsed n h) := by
  have hin : p.parsedBytes + n ≤ p.recvBuffer.length := by
    rw [unparsed, List.length_drop] at h
    omega
  rw [peek, dif_pos hin]
  rfl

lemma peek_payload (hp : p.parsedBytes ≤ p.recvBuffer.length) {n : ℕ}
    (h : 13 + n ≤ p.unparsed.length) :
    ∃ b : Block n, peek p.recvBuffer (p.parsedBytes + sizeofDataPktHeader) n = .ok b ∧
      b.1 = (p.unparsed.drop 13).take n := by
  have hin : p.parsedBytes + sizeofDataPktHeader + n ≤ p.recvBuffer.length := by
    rw [unparsed, List.length_drop] at h
    rw [sizeofDataPktHeader]
    omega
  refine ⟨_, by rw [peek, dif_pos hin], ?_⟩
  rw [unparsed, List.drop_drop]

/-! ## The three parse functions -/

lemma parseAuthRequest_short (hp : p.parsedBytes ≤ p.recvBuffer.length)
    (h : p.unparsed.length < 17) : p.parseAuthRequest result = .ok (false, p, result) := by
  rw [parseAuthRequest, unparsedSize_eq hp, if_pos (by rw [sizeofAuthRequest]; exact h)]
  rfl

lemma parseAuthRequest_whole (hp : p.parsedBytes ≤ p.recvBuffer.length)
    (h : 17 ≤ p.unparsed.length) :
    p.parseAuthRequest result =
      .ok (true, p.advance 17, result.store .authRequest (p.unparsed.take 17)) := by
  have hsize : ¬ p.unparsed.length < sizeofAuthRequest := by rw [sizeofAuthRequest]; omega
  have hpeek : peek p.recvBuffer p.parsedBytes sizeofAuthRequest =
      .ok (prefixBlock p.unparsed 17 h) := peek_unparsed hp h
  have hheader : (p.unparsed.take 17).take MessageType.authRequest.headerSize =
      (prefixBlock p.unparsed 17 h).1 := take_take_eq_prefixBlock (le_refl 17) h
  rw [parseAuthRequest, unparsedSize_eq hp, if_neg hsize, hpeek]
  simp only [ParsedMessage.store, hheader]
  rfl

lemma parseAuthResponse_short (hp : p.parsedBytes ≤ p.recvBuffer.length)
    (h : p.unparsed.length < 25) : p.parseAuthResponse result = .ok (false, p, result) := by
  rw [parseAuthResponse, unparsedSize_eq hp, if_pos (by rw [sizeofAuthResponse]; exact h)]
  rfl

lemma parseAuthResponse_whole (hp : p.parsedBytes ≤ p.recvBuffer.length)
    (h : 25 ≤ p.unparsed.length) :
    p.parseAuthResponse result =
      .ok (true, p.advance 25, result.store .authResponse (p.unparsed.take 25)) := by
  have hsize : ¬ p.unparsed.length < sizeofAuthResponse := by rw [sizeofAuthResponse]; omega
  have hpeek : peek p.recvBuffer p.parsedBytes sizeofAuthResponse =
      .ok (prefixBlock p.unparsed 25 h) := peek_unparsed hp h
  have hheader : (p.unparsed.take 25).take MessageType.authResponse.headerSize =
      (prefixBlock p.unparsed 25 h).1 := take_take_eq_prefixBlock (le_refl 25) h
  rw [parseAuthResponse, unparsedSize_eq hp, if_neg hsize, hpeek]
  simp only [ParsedMessage.store, hheader]
  rfl

lemma parseDataPacket_short_header (hp : p.parsedBytes ≤ p.recvBuffer.length)
    (h : p.unparsed.length < 13) : p.parseDataPacket result = .ok (false, p, result) := by
  rw [parseDataPacket, unparsedSize_eq hp, if_pos (by rw [sizeofDataPktHeader]; exact h)]
  rfl

lemma parseDataPacket_short_payload (hp : p.parsedBytes ≤ p.recvBuffer.length)
    (h : 13 ≤ p.unparsed.length)
    (hsize : p.unparsed.length <
      13 + (DataPktHeader.ofBlock (prefixBlock p.unparsed 13 h)).dataSize.toNat) :
    p.parseDataPacket result = .ok (false, p, result) := by
  have hheader : ¬ p.unparsed.length < sizeofDataPktHeader := by
    rw [sizeofDataPktHeader]; omega
  have hbytes : peek p.recvBuffer p.parsedBytes sizeofDataPktHeader =
      .ok (prefixBlock p.unparsed 13 h) := peek_unparsed hp h
  rw [parseDataPacket, unparsedSize_eq hp, if_neg hheader, hbytes]
  simp only [bind, Except.bind]
  rw [if_pos hsize]
  rfl

lemma parseDataPacket_whole (hp : p.parsedBytes ≤ p.recvBuffer.length)
    (h : 13 ≤ p.unparsed.length)
    (hsize : 13 + (DataPktHeader.ofBlock (prefixBlock p.unparsed 13 h)).dataSize.toNat ≤
      p.unparsed.length) :
    p.parseDataPacket result = .ok (true,
      p.advance (13 + (DataPktHeader.ofBlock (prefixBlock p.unparsed 13 h)).dataSize.toNat),
      result.store .dataPkt (p.unparsed.take
        (13 + (DataPktHeader.ofBlock (prefixBlock p.unparsed 13 h)).dataSize.toNat))) := by
  obtain ⟨payload, hpeek, hpayload⟩ := peek_payload hp hsize
  have hlong : ¬ p.unparsed.length < sizeofDataPktHeader := by
    rw [sizeofDataPktHeader]; omega
  have hbytes : peek p.recvBuffer p.parsedBytes sizeofDataPktHeader =
      .ok (prefixBlock p.unparsed 13 h) := peek_unparsed hp h
  rw [parseDataPacket, unparsedSize_eq hp, if_neg hlong, hbytes]
  simp only [bind, Except.bind]
  rw [if_neg (Nat.not_lt.mpr hsize), hpeek]
  generalize (DataPktHeader.ofBlock (prefixBlock p.unparsed 13 h)).dataSize.toNat = n at *
  have hheader : (p.unparsed.take (13 + n)).take MessageType.dataPkt.headerSize =
      (prefixBlock p.unparsed 13 h).1 := take_take_eq_prefixBlock (Nat.le_add_right 13 n) h
  have hdata : (p.unparsed.take (13 + n)).drop MessageType.dataPkt.headerSize = payload.1 := by
    rw [MessageType.headerSize, List.drop_take, Nat.add_sub_cancel_left, hpayload]
  simp only [ParsedMessage.store, hheader, hdata]
  rfl

/-! ## The message a result object carries then -/

lemma toFrame_store_authRequest (m : ParsedMessage) {bs : Bytes} (h : 17 ≤ bs.length)
    (ht : bs.take 1 = [1]) :
    (m.store .authRequest (bs.take 17)).toFrame =
      some (.authRequest (AuthRequest.ofBlock (prefixBlock bs 17 h)).clientUuid) := by
  have hread : (m.store .authRequest (bs.take 17)).authRequest =
      AuthRequest.ofBlock (prefixBlock bs 17 h) :=
    congrArg AuthRequest.ofBlock (m.read_store_take .authRequest (le_refl 17) h _)
  have htype : (AuthRequest.ofBlock (prefixBlock bs 17 h)).type = 1 := by
    simp [AuthRequest.ofBlock, Block.read, prefixBlock, List.take_take, ht]
  show (if _ then some (Frame.authRequest _) else none) = _
  rw [hread, htype]
  rfl

lemma toFrame_store_authResponse (m : ParsedMessage) {bs : Bytes} (h : 25 ≤ bs.length)
    (ht : bs.take 1 = [2]) :
    (m.store .authResponse (bs.take 25)).toFrame =
      some (.authResponse (AuthResponse.ofBlock (prefixBlock bs 25 h)).clientUuid
        (AuthResponse.ofBlock (prefixBlock bs 25 h)).restoreSeqNum) := by
  have hread : (m.store .authResponse (bs.take 25)).authResponse =
      AuthResponse.ofBlock (prefixBlock bs 25 h) :=
    congrArg AuthResponse.ofBlock (m.read_store_take .authResponse (le_refl 25) h _)
  have htype : (AuthResponse.ofBlock (prefixBlock bs 25 h)).type = 2 := by
    simp [AuthResponse.ofBlock, Block.read, prefixBlock, List.take_take, ht]
  show (if _ then some (Frame.authResponse _ _) else none) = _
  rw [hread, htype]
  rfl

lemma toFrame_store_dataPkt (m : ParsedMessage) {bs : Bytes} (h : 13 ≤ bs.length)
    (ht : bs.take 1 = [3]) {n : ℕ}
    (hn : (DataPktHeader.ofBlock (prefixBlock bs 13 h)).dataSize.toNat = n)
    (hsize : 13 + n ≤ bs.length) (hlt : ((bs.drop 13).take n).length < 2 ^ 32) :
    (m.store .dataPkt (bs.take (13 + n))).toFrame =
      some (.dataPkt (DataPktHeader.ofBlock (prefixBlock bs 13 h)).seqNum ⟨_, hlt⟩) := by
  have hread : (m.store .dataPkt (bs.take (13 + n))).packetHeader =
      DataPktHeader.ofBlock (prefixBlock bs 13 h) :=
    congrArg DataPktHeader.ofBlock (m.read_store_take .dataPkt (Nat.le_add_right 13 n) h _)
  have hdata : (m.store .dataPkt (bs.take (13 + n))).packetData = (bs.drop 13).take n := by
    show (bs.take (13 + n)).drop 13 = _
    rw [List.drop_take, Nat.add_sub_cancel_left]
  have htype : (DataPktHeader.ofBlock (prefixBlock bs 13 h)).type = 3 := by
    simp [DataPktHeader.ofBlock, Block.read, prefixBlock, List.take_take, ht]
  have hlen : ((bs.drop 13).take n).length = n := by
    rw [List.length_take, List.length_drop]
    omega
  show (if h : _ then some (Frame.dataPkt _ _) else none) = _
  rw [dif_pos ⟨by rw [hread, htype]; rfl, by rw [hread, hdata, hn, hlen]⟩]
  simp only [hread, hdata]

/-! ## `tryParseMessage` -/

variable (result)

/-- The bytes `tryParseMessage` skips where it finds no frame. -/
def skipped (bs : Bytes) : ℕ :=
  if bs = [] ∨ bs.take 1 = [1] ∨ bs.take 1 = [2] ∨ bs.take 1 = [3] then 0 else 1

/-- The dispatch on the type byte, on a nonempty rest of the buffer. -/
lemma tryParseMessage_eq (hp : p.parsedBytes ≤ p.recvBuffer.length) (h : p.unparsed ≠ []) :
    p.tryParseMessage result =
      if p.unparsed.take 1 = [1] then p.parseAuthRequest result
      else if p.unparsed.take 1 = [2] then p.parseAuthResponse result
      else if p.unparsed.take 1 = [3] then p.parseDataPacket result
      else .ok (false, p.advance 1, result) := by
  have hpos : 1 ≤ p.unparsed.length := List.length_pos_iff.mpr h
  rw [tryParseMessage, unparsedSize_eq hp, sizeofMessageType, if_neg (by omega),
    peek_unparsed hp hpos]
  rfl

/-- **A whole frame is accepted.** -/
lemma tryParseMessage_of_decode_some (hp : p.parsedBytes ≤ p.recvBuffer.length) {f : Frame}
    {n : ℕ} (h : decode p.unparsed = some (f, n)) :
    ∃ result', p.tryParseMessage result = .ok (true, p.advance n, result') ∧
      result'.toFrame = some f := by
  have hne : p.unparsed ≠ [] := by
    intro hnil
    simp [hnil, decode] at h
  rw [tryParseMessage_eq result hp hne]
  rw [decode] at h
  split_ifs at h with h1 hlen h2 hlen h3 hlen
  · cases h
    rw [if_pos h1]
    exact ⟨_, parseAuthRequest_whole hp hlen, toFrame_store_authRequest result hlen h1⟩
  · cases h
    rw [if_neg h1, if_pos h2]
    exact ⟨_, parseAuthResponse_whole hp hlen, toFrame_store_authResponse result hlen h2⟩
  · simp only at h
    split_ifs at h with hsize
    cases h
    rw [if_neg h1, if_neg h2, if_pos h3]
    exact ⟨_, parseDataPacket_whole hp hlen hsize,
      toFrame_store_dataPkt result hlen h3 rfl hsize _⟩

/-- **Anything else is refused**, and only a byte that starts no frame is skipped. -/
lemma tryParseMessage_of_decode_none (hp : p.parsedBytes ≤ p.recvBuffer.length)
    (h : decode p.unparsed = none) :
    p.tryParseMessage result = .ok (false, p.advance (skipped p.unparsed), result) := by
  by_cases hne : p.unparsed = []
  · rw [tryParseMessage, unparsedSize_eq hp, hne, if_pos (by decide)]
    rfl
  rw [tryParseMessage_eq result hp hne]
  rw [decode] at h
  split_ifs at h with h1 hlen h2 hlen h3 hlen
  · rw [if_pos h1, parseAuthRequest_short hp (by omega), skipped, if_pos (by simp [h1])]
    rfl
  · rw [if_neg h1, if_pos h2, parseAuthResponse_short hp (by omega), skipped,
      if_pos (by simp [h2])]
    rfl
  · simp only at h
    split_ifs at h with hsize
    rw [if_neg h1, if_neg h2, if_pos h3,
      parseDataPacket_short_payload hp hlen (by omega), skipped, if_pos (by simp [h3])]
    rfl
  · rw [if_neg h1, if_neg h2, if_pos h3, parseDataPacket_short_header hp (by omega), skipped,
      if_pos (by simp [h3])]
    rfl
  · rw [if_neg h1, if_neg h2, if_neg h3, skipped, if_neg (by simp [hne, h1, h2, h3])]

/-- In front of a partial frame nothing is skipped. -/
lemma skipped_eq_zero {bs : Bytes} (h : frameCode.Partial bs) : skipped bs = 0 := by
  rcases h with rfl | ⟨f, n, -, rfl⟩
  · rfl
  · cases n with
    | zero => simp [skipped]
    | succ n => cases f <;> simp [skipped, frameCode, encode]

end MessageParser

end ClientServer.Netlib
