import ClientServer.Netlib.Parsing

/-!
# The frame grammar

Which byte strings `tryParseMessage` takes for a message, in terms of the bytes alone:
`MessageType.Starts` is the grammar, a type byte, the struct of that type and, for a data packet,
as many bytes as its `data_size` says.  On every buffer and every result object the parser
follows it (`parses_tryParseMessage`).

What a successful parse leaves in the result object is `ParsedMessage.store`.  It writes
neither `size_header` nor, for a handshake message, `packet_data`, so there the object keeps what
it held before: `agrees_tryParseMessage_iff` compares two objects given to the same parse.
-/

namespace ClientServer.Netlib

open ClientServer.Netlib.Frame MessageParser

/-! ## The grammar -/

namespace MessageType

/-- The length of a message of this type that begins with `bs`. -/
def frameSize (type : MessageType) (bs : Bytes) : ℕ :=
  match type with
  | .authRequest => 17
  | .authResponse => 25
  | .dataPkt => 13 + leValue ((bs.drop 9).take 4)

/-- `bs` begins with a complete message of this type. -/
def Starts (type : MessageType) (bs : Bytes) : Prop :=
  bs.take 1 = [type.toByte] ∧ type.headerSize ≤ bs.length ∧ type.frameSize bs ≤ bs.length

instance (type : MessageType) (bs : Bytes) : Decidable (type.Starts bs) :=
  inferInstanceAs (Decidable (_ ∧ _ ∧ _))

variable {type type' : MessageType} {bs : Bytes}

lemma Starts.unique (h : type.Starts bs) (h' : type'.Starts bs) : type = type' := by
  have hbyte : [type.toByte] = [type'.toByte] := h.1.symm.trans h'.1
  cases type <;> cases type' <;> first | rfl | exact absurd hbyte (by decide)

/-- The header of a data packet is read back from its bytes. -/
lemma dataSize_prefixBlock (h : 13 ≤ bs.length) :
    (DataPktHeader.ofBlock (prefixBlock bs 13 h)).dataSize.toNat =
      leValue ((bs.drop 9).take 4) := by
  have hread : ((prefixBlock bs 13 h).read 9 4 (by omega)).1 = (bs.drop 9).take 4 := by
    simp [Block.read, prefixBlock, List.drop_take, List.take_take]
  have hlt : leValue ((bs.drop 9).take 4) < 2 ^ 32 := by
    have hlen : ((bs.drop 9).take 4).length = 4 := by
      rw [List.length_take, List.length_drop]
      omega
    have hbound := leValue_lt ((bs.drop 9).take 4)
    rw [hlen] at hbound
    exact hbound
  simp only [DataPktHeader.ofBlock, hread]
  rw [UInt32.toNat_ofNat', Nat.mod_eq_of_lt hlt]

/-- More bytes behind a complete message do not change it. -/
lemma Starts.append (h : type.Starts bs) (more : Bytes) :
    type.Starts (bs ++ more) ∧ type.frameSize (bs ++ more) = type.frameSize bs := by
  obtain ⟨hbyte, hheader, hframe⟩ := h
  have hsize : type.frameSize (bs ++ more) = type.frameSize bs := by
    cases type with
    | authRequest | authResponse => rfl
    | dataPkt =>
      have hlen : 13 ≤ bs.length := hheader
      have hnine : 9 ≤ bs.length := by omega
      have hfour : 4 ≤ (bs.drop 9).length := by
        rw [List.length_drop]
        omega
      simp only [frameSize, List.drop_append_of_le_length hnine,
        List.take_append_of_le_length hfour]
  have hone : 1 ≤ bs.length := by
    have hlen := congrArg List.length hbyte
    rw [List.length_take] at hlen
    simp only [List.length_singleton] at hlen
    omega
  refine ⟨⟨?_, ?_, ?_⟩, hsize⟩
  · rw [List.take_append_of_le_length hone, hbyte]
  · rw [List.length_append]
    omega
  · rw [hsize, List.length_append]
    omega

/-- Where no message starts, the decoder of the wire format finds none. -/
lemma decode_eq_none_of_not_starts (h : ∀ type : MessageType, ¬ type.Starts bs) :
    decode bs = none := by
  unfold decode
  split_ifs with h1 hlen h2 hlen h3 hlen
  · exact absurd ⟨h1, hlen, hlen⟩ (h .authRequest)
  · rfl
  · exact absurd ⟨h2, hlen, hlen⟩ (h .authResponse)
  · rfl
  · refine if_neg fun hsize => h .dataPkt ⟨h3, hlen, ?_⟩
    rw [frameSize, ← dataSize_prefixBlock hlen]
    exact hsize
  · rfl
  · rfl

end MessageType

/-! ## What a parse does -/

/-- The union member that the message's type selects, as it is stored. -/
def ParsedMessage.member (m : ParsedMessage) : Bytes := m.fields.1.take m.type.headerSize

/-- `m` holds the message of this type that `bs` begins with. -/
structure ParsedMessage.Carries (m : ParsedMessage) (type : MessageType) (bs : Bytes) :
    Prop where
  type_eq : m.type = type
  member_eq : m.member = bs.take type.headerSize
  payload : type = .dataPkt → m.packetData = (bs.take (type.frameSize bs)).drop type.headerSize

/-- The struct of the type is stored as it stands in the buffer. -/
lemma ParsedMessage.member_store (m : ParsedMessage) {type : MessageType} {bytes : Bytes}
    (h : type.headerSize ≤ bytes.length) :
    (m.store type bytes).member = bytes.take type.headerSize := by
  have hread : 0 + type.headerSize ≤ 25 := by
    rw [Nat.zero_add]
    exact type.headerSize_le
  have hblock := congrArg Subtype.val (m.read_store type h hread)
  simp only [Block.read, List.drop_zero] at hblock
  exact hblock

namespace MessageType

variable {type : MessageType} {bs : Bytes}

lemma headerSize_le_frameSize (type : MessageType) (bs : Bytes) :
    type.headerSize ≤ type.frameSize bs := by
  cases type with
  | authRequest | authResponse => exact le_refl _
  | dataPkt => exact Nat.le_add_right 13 _

/-- What a parse stores of a message that starts here carries it. -/
lemma Starts.carries_store (h : type.Starts bs) (m : ParsedMessage) :
    (m.store type (bs.take (type.frameSize bs))).Carries type bs := by
  have hle := type.headerSize_le_frameSize bs
  refine ⟨rfl, ?_, ?_⟩
  · rw [m.member_store, List.take_take, min_eq_left hle]
    rw [List.length_take]
    exact le_min hle h.2.1
  · rintro rfl
    rfl

end MessageType

/-- What a call `tryParseMessage(result)` may do: `parsed`, `p'` and `result'` are what it
returns and leaves behind. -/
structure Parses (p : MessageParser) (result : ParsedMessage) (parsed : Bool)
    (p' : MessageParser) (result' : ParsedMessage) : Prop where
  accepts_iff : parsed = true ↔ ∃ type : MessageType, type.Starts p.unparsed
  accepted : ∀ type : MessageType, type.Starts p.unparsed →
    result'.Carries type p.unparsed ∧ p' = p.advance (type.frameSize p.unparsed)
  refused : parsed = false → result' = result ∧ p' = p.advance (skipped p.unparsed)
  inRange : p'.parsedBytes ≤ p'.recvBuffer.length
  /-- More bytes behind an accepted message change nothing. -/
  stable : parsed = true → ∀ more : Bytes,
    tryParseMessage { p with recvBuffer := p.recvBuffer ++ more } result =
      .ok (true, { p' with recvBuffer := p.recvBuffer ++ more }, result')

namespace MessageParser

variable {p : MessageParser} (result : ParsedMessage)

/-- A message that starts at the cursor is stored. -/
lemma tryParseMessage_of_starts (hp : p.parsedBytes ≤ p.recvBuffer.length) {type : MessageType}
    (h : type.Starts p.unparsed) :
    p.tryParseMessage result = .ok (true, p.advance (type.frameSize p.unparsed),
      result.store type (p.unparsed.take (type.frameSize p.unparsed))) := by
  obtain ⟨hbyte, hheader, hframe⟩ := h
  have hne : p.unparsed ≠ [] := by
    intro hnil
    rw [hnil] at hbyte
    cases hbyte
  rw [tryParseMessage_eq result hp hne]
  cases type with
  | authRequest =>
    have hone : p.unparsed.take 1 = [1] := hbyte
    rw [if_pos hone, parseAuthRequest_whole hp hframe]
    rfl
  | authResponse =>
    have htwo : p.unparsed.take 1 = [2] := hbyte
    rw [if_neg (by rw [htwo]; decide), if_pos htwo, parseAuthResponse_whole hp hframe]
    rfl
  | dataPkt =>
    have hthree : p.unparsed.take 1 = [3] := hbyte
    have hsize := MessageType.dataSize_prefixBlock hheader
    rw [MessageType.frameSize, ← hsize] at hframe ⊢
    rw [if_neg (by rw [hthree]; decide), if_neg (by rw [hthree]; decide), if_pos hthree,
      parseDataPacket_whole hp hheader hframe]

/-- Where no message starts the result object is left alone. -/
lemma tryParseMessage_of_not_starts (hp : p.parsedBytes ≤ p.recvBuffer.length)
    (h : ∀ type : MessageType, ¬ type.Starts p.unparsed) :
    p.tryParseMessage result = .ok (false, p.advance (skipped p.unparsed), result) :=
  tryParseMessage_of_decode_none result hp (MessageType.decode_eq_none_of_not_starts h)

/-- Only an unparsed byte is skipped. -/
lemma skipped_le_length (bs : Bytes) : skipped bs ≤ bs.length := by
  rw [skipped]
  split_ifs with h
  · exact Nat.zero_le _
  · exact List.length_pos_iff.mpr (not_or.mp h).1

/-- The cursor stays in range as long as it moves over unparsed bytes only. -/
lemma advance_inRange (hp : p.parsedBytes ≤ p.recvBuffer.length) {n : ℕ}
    (h : n ≤ p.unparsed.length) : (p.advance n).parsedBytes ≤ (p.advance n).recvBuffer.length := by
  rw [unparsed, List.length_drop] at h
  simp only [advance]
  omega

/-- Bytes that arrive stand behind the unparsed ones. -/
lemma unparsed_append (hp : p.parsedBytes ≤ p.recvBuffer.length) (more : Bytes) :
    unparsed { p with recvBuffer := p.recvBuffer ++ more } = p.unparsed ++ more := by
  simp only [unparsed]
  exact List.drop_append_of_le_length hp

/-- A message that starts at the cursor is stored in the same way with more bytes behind it. -/
lemma tryParseMessage_append (hp : p.parsedBytes ≤ p.recvBuffer.length) {type : MessageType}
    (h : type.Starts p.unparsed) (more : Bytes) :
    tryParseMessage { p with recvBuffer := p.recvBuffer ++ more } result =
      .ok (true, { p.advance (type.frameSize p.unparsed) with
          recvBuffer := p.recvBuffer ++ more },
        result.store type (p.unparsed.take (type.frameSize p.unparsed))) := by
  obtain ⟨hstarts, hsize⟩ := h.append more
  have hin : p.parsedBytes ≤ (p.recvBuffer ++ more).length := by
    rw [List.length_append]
    omega
  rw [← unparsed_append hp more] at hstarts hsize
  rw [tryParseMessage_of_starts result hin hstarts, hsize, unparsed_append hp more,
    List.take_append_of_le_length h.2.2]
  rfl

/-- **`tryParseMessage` follows the grammar**, on every buffer and every cursor in it. -/
theorem parses_tryParseMessage (p : MessageParser) (result : ParsedMessage)
    (hp : p.parsedBytes ≤ p.recvBuffer.length) :
    ∃ parsed p' result', p.tryParseMessage result = .ok (parsed, p', result') ∧
      Parses p result parsed p' result' := by
  by_cases h : ∃ type : MessageType, type.Starts p.unparsed
  · obtain ⟨type, hstarts⟩ := h
    refine ⟨_, _, _, tryParseMessage_of_starts result hp hstarts, ?_⟩
    refine ⟨iff_of_true rfl ⟨type, hstarts⟩, ?_, fun hfalse => ?_, ?_, fun _ => ?_⟩
    · intro type' hstarts'
      obtain rfl := hstarts.unique hstarts'
      exact ⟨hstarts.carries_store result, rfl⟩
    · cases hfalse
    · exact advance_inRange hp hstarts.2.2
    · exact tryParseMessage_append result hp hstarts
  · have hnot : ∀ type : MessageType, ¬ type.Starts p.unparsed := not_exists.mp h
    refine ⟨_, _, _, tryParseMessage_of_not_starts result hp hnot, ?_⟩
    refine ⟨iff_of_false Bool.false_ne_true h, fun type hstarts => absurd hstarts (hnot type),
      fun _ => ⟨rfl, rfl⟩, advance_inRange hp (skipped_le_length _), fun htrue => ?_⟩
    cases htrue

/-- A data packet with one byte of payload, behind a byte already parsed. -/
theorem parses_tryParseMessage_dataPkt :
    ∃ parsed p' result',
      tryParseMessage ⟨[9, 3, 0, 0, 0, 0, 0, 0, 0, 0, 1, 0, 0, 0, 42], 1, false⟩ blankMessage =
        .ok (parsed, p', result') ∧
      Parses ⟨[9, 3, 0, 0, 0, 0, 0, 0, 0, 0, 1, 0, 0, 0, 42], 1, false⟩ blankMessage parsed p'
        result' :=
  parses_tryParseMessage _ _ (by decide)

end MessageParser

/-! ## What a message keeps of the object it is parsed into -/

/-- Two result objects agree on the message: on its type, `size_header`, the union member of the
type and `packet_data`. -/
structure ParsedMessage.Agrees (m₁ m₂ : ParsedMessage) : Prop where
  type_eq : m₁.type = m₂.type
  sizeHeader_eq : m₁.sizeHeader = m₂.sizeHeader
  member_eq : m₁.member = m₂.member
  packetData_eq : m₁.packetData = m₂.packetData

/-- Storing one message into two objects leaves them different only in what `store` keeps. -/
lemma ParsedMessage.agrees_store_iff (r₁ r₂ : ParsedMessage) {type : MessageType}
    {bytes : Bytes} (h : type.headerSize ≤ bytes.length) :
    (r₁.store type bytes).Agrees (r₂.store type bytes) ↔
      r₁.sizeHeader = r₂.sizeHeader ∧ (type = .dataPkt ∨ r₁.packetData = r₂.packetData) := by
  have hdata : (r₁.store type bytes).packetData = (r₂.store type bytes).packetData ↔
      type = .dataPkt ∨ r₁.packetData = r₂.packetData := by
    simp only [store]
    split_ifs with htype
    · exact iff_of_true rfl (.inl htype)
    · exact (or_iff_right htype).symm
  rw [← hdata]
  constructor
  · intro hagrees
    exact ⟨hagrees.sizeHeader_eq, hagrees.packetData_eq⟩
  · rintro ⟨hsize, hpacket⟩
    exact ⟨rfl, hsize, by rw [r₁.member_store h, r₂.member_store h], hpacket⟩

namespace MessageParser

variable {p p₁ : MessageParser} {r₁ m₁ : ParsedMessage}

/-- A cursor behind the end makes no parse succeed. -/
lemma inRange_of_parsed (h : p.tryParseMessage r₁ = .ok (true, p₁, m₁)) :
    p.parsedBytes ≤ p.recvBuffer.length := by
  by_contra hp
  have hpeek : peek p.recvBuffer p.parsedBytes sizeofMessageType = .error .outOfBounds := by
    rw [peek, dif_neg]
    omega
  rw [tryParseMessage, hpeek] at h
  split_ifs at h
  · cases h
  · cases h

/-- A parse succeeds on the messages of the grammar only. -/
lemma starts_of_parsed (h : p.tryParseMessage r₁ = .ok (true, p₁, m₁)) :
    ∃ type : MessageType, type.Starts p.unparsed := by
  by_contra hnot
  rw [tryParseMessage_of_not_starts r₁ (inRange_of_parsed h) (not_exists.mp hnot)] at h
  cases h

/-- **When a decoded message does not depend on what the object held.**  The two objects have to
hold the same `size_header`, and the same `packet_data` unless a data packet is parsed. -/
theorem agrees_tryParseMessage_iff (p : MessageParser) (r₁ r₂ : ParsedMessage)
    (p₁ : MessageParser) (m₁ : ParsedMessage)
    (h : p.tryParseMessage r₁ = .ok (true, p₁, m₁)) :
    ∃ m₂, p.tryParseMessage r₂ = .ok (true, p₁, m₂) ∧
      (m₁.Agrees m₂ ↔ r₁.sizeHeader = r₂.sizeHeader ∧
        (p.unparsed.take 1 = [MessageType.dataPkt.toByte] ∨ r₁.packetData = r₂.packetData)) := by
  have hp := inRange_of_parsed h
  obtain ⟨type, hstarts⟩ := starts_of_parsed h
  rw [tryParseMessage_of_starts r₁ hp hstarts] at h
  obtain ⟨rfl, rfl⟩ : p.advance (type.frameSize p.unparsed) = p₁ ∧
      r₁.store type (p.unparsed.take (type.frameSize p.unparsed)) = m₁ := by
    injection h with hpair
    injection hpair with _ hpair
    injection hpair with hcursor hmessage
    exact ⟨hcursor, hmessage⟩
  refine ⟨_, tryParseMessage_of_starts r₂ hp hstarts, ?_⟩
  have hbyte : type = .dataPkt ↔ p.unparsed.take 1 = [MessageType.dataPkt.toByte] := by
    rw [hstarts.1]
    cases type <;> decide
  rw [ParsedMessage.agrees_store_iff, hbyte]
  rw [List.length_take]
  exact le_min (type.headerSize_le_frameSize _) hstarts.2.1

/-- A buffer that holds an authentication request. -/
def requestParser : MessageParser := ⟨1 :: List.replicate 16 0, 0, false⟩

/-- An object with the payload of an earlier data packet. -/
def usedMessage : ParsedMessage := { blankMessage with type := .dataPkt, packetData := [42] }

lemma starts_requestParser : MessageType.authRequest.Starts requestParser.unparsed := by
  decide

/-- The request, parsed into a blank object and into one that was used. -/
theorem agrees_tryParseMessage_iff_used :
    ∃ m₂, requestParser.tryParseMessage usedMessage = .ok (true, requestParser.advance 17, m₂) ∧
      ((blankMessage.store .authRequest (requestParser.unparsed.take 17)).Agrees m₂ ↔
        blankMessage.sizeHeader = usedMessage.sizeHeader ∧
          (requestParser.unparsed.take 1 = [MessageType.dataPkt.toByte] ∨
            blankMessage.packetData = usedMessage.packetData)) :=
  agrees_tryParseMessage_iff requestParser blankMessage usedMessage _ _
    (tryParseMessage_of_starts blankMessage (by decide) starts_requestParser)

/-- A request parsed behind a data packet carries that packet's payload. -/
theorem not_agrees_request_after_dataPkt :
    ¬ ∀ (p : MessageParser) (r₁ r₂ : ParsedMessage) (p₁ p₂ : MessageParser)
      (m₁ m₂ : ParsedMessage), p.tryParseMessage r₁ = .ok (true, p₁, m₁) →
        p.tryParseMessage r₂ = .ok (true, p₂, m₂) → m₁.Agrees m₂ := by
  intro hall
  have hagrees := hall requestParser blankMessage usedMessage _ _ _ _
    (tryParseMessage_of_starts blankMessage (by decide) starts_requestParser)
    (tryParseMessage_of_starts usedMessage (by decide) starts_requestParser)
  exact absurd hagrees.packetData_eq (by decide)

end MessageParser

end ClientServer.Netlib
