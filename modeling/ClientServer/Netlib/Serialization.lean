import ClientServer.Library.Bytes

/-!
# `netlib/serialization.h`: the message parser

The packed wire structures, the reusable result object `ParsedMessage`, and the class
`MessageParser` with its send and receive paths, as the header computes them.

The union inside `ParsedMessage` is kept as its storage: a block of 25 bytes, the size of its
largest member, which `memcpy` and the field assignments write into and the three members are
views of.  A parser that writes one member therefore leaves the bytes beyond it alone, exactly
as the source does.

The socket is seen through the answers the kernel gives.  On the send side `Socket` carries
one answer for each `send` call and collects the bytes accepted; on the receive side a list of
`RecvAnswer`s is consumed one per `recv`.  A read of `recv_buffer_` outside its bounds is the
explicit outcome `Fault.outOfBounds`, never a default value.

Left out: `sockfd_`, which only names the socket, the diagnostic printing, and the capacity of
`recv_buffer_`, whose `reserve` calls do not change its contents.
-/

namespace ClientServer.Netlib

/-! ## Wire structures -/

/-- `enum class MessageType : uint8_t`. -/
inductive MessageType
  | authRequest
  | authResponse
  | dataPkt
  deriving DecidableEq, Repr

/-- The enumerators' values. -/
def MessageType.toByte : MessageType → UInt8
  | .authRequest => 1
  | .authResponse => 2
  | .dataPkt => 3

/-- `struct AuthRequest`, packed: the type byte and 16 bytes of uuid. -/
structure AuthRequest where
  type : UInt8
  clientUuid : Block 16
  deriving DecidableEq

/-- `struct AuthResponse`, packed. -/
structure AuthResponse where
  type : UInt8
  clientUuid : Block 16
  restoreSeqNum : UInt64
  deriving DecidableEq

/-- `struct DataPktHeader`, packed; the payload follows it on the wire. -/
structure DataPktHeader where
  type : UInt8
  seqNum : UInt64
  dataSize : UInt32
  deriving DecidableEq

abbrev sizeofMessageType : ℕ := 1

abbrev sizeofAuthRequest : ℕ := 17

abbrev sizeofAuthResponse : ℕ := 25

abbrev sizeofDataPktHeader : ℕ := 13

/-- The `AuthRequest` that 17 bytes of storage hold. -/
def AuthRequest.ofBlock (b : Block 17) : AuthRequest where
  type := UInt8.ofNat (leValue (b.read 0 1 (by omega)).1)
  clientUuid := b.read 1 16 (by omega)

/-- The `AuthResponse` that 25 bytes of storage hold. -/
def AuthResponse.ofBlock (b : Block 25) : AuthResponse where
  type := UInt8.ofNat (leValue (b.read 0 1 (by omega)).1)
  clientUuid := b.read 1 16 (by omega)
  restoreSeqNum := UInt64.ofNat (leValue (b.read 17 8 (by omega)).1)

/-- The `DataPktHeader` that 13 bytes of storage hold. -/
def DataPktHeader.ofBlock (b : Block 13) : DataPktHeader where
  type := UInt8.ofNat (leValue (b.read 0 1 (by omega)).1)
  seqNum := UInt64.ofNat (leValue (b.read 1 8 (by omega)).1)
  dataSize := UInt32.ofNat (leValue (b.read 9 4 (by omega)).1)

/-- `struct ParsedMessage`: the result object of a parse, reused between calls. -/
structure ParsedMessage where
  type : MessageType
  sizeHeader : Int32
  /-- The storage of the anonymous union. -/
  fields : Block 25
  packetData : Bytes
  deriving DecidableEq

namespace ParsedMessage

/-- The union read as its member `auth_request`. -/
def authRequest (m : ParsedMessage) : AuthRequest := .ofBlock (m.fields.read 0 17 (by omega))

/-- The union read as its member `auth_response`. -/
def authResponse (m : ParsedMessage) : AuthResponse := .ofBlock (m.fields.read 0 25 (by omega))

/-- The union read as its member `packet_header`. -/
def packetHeader (m : ParsedMessage) : DataPktHeader := .ofBlock (m.fields.read 0 13 (by omega))

end ParsedMessage

/-! ## Sending -/

/-- What one `send` call answers: the kernel takes some of the bytes offered, or `-1`. -/
inductive SendAnswer
  | accept (n : ℕ)
  | fail
  deriving DecidableEq, Repr

/-- The bytes a `send` call takes of an offer that is large enough. -/
def SendAnswer.count : SendAnswer → ℕ
  | .accept n => n
  | .fail => 0

/-- A connected socket, seen from the sender. -/
structure Socket where
  /-- The kernel's answer to each `send` call. -/
  answers : ℕ → SendAnswer
  /-- How many `send` calls were made. -/
  calls : ℕ
  /-- The bytes accepted so far. -/
  wire : Bytes

/-- `send(sockfd, ptr, len, MSG_NOSIGNAL)`: the kernel takes at most the bytes offered. -/
def Socket.send (s : Socket) (bs : Bytes) : ℤ × Socket :=
  match s.answers s.calls with
  | .accept n =>
    ((min n bs.length : ℕ), { s with calls := s.calls + 1, wire := s.wire ++ bs.take n })
  | .fail => (-1, { s with calls := s.calls + 1 })

/-- The partial-send loop that `sendAll` and `sendPacketPayload` both contain. -/
def sendLoop (s : Socket) (data : Bytes) (totalSent remaining : ℕ) : Bool × Socket :=
  if remaining = 0 then (true, s)
  else
    match s.send ((data.drop totalSent).take remaining) with
    | (sent, s') =>
      if 0 < sent then sendLoop s' data (totalSent + sent.toNat) (remaining - sent.toNat)
      else (false, s')
termination_by remaining
decreasing_by omega

/-- `MessageParser::sendAll`. -/
def sendAll (s : Socket) (data : Bytes) : Bool × Socket := sendLoop s data 0 data.length

/-- `MessageParser::sendPacketPayload`: the header through `sendAll`, whose result is dropped,
then the payload. -/
def sendPacketPayload (s : Socket) (header data : Bytes) : Bool × Socket :=
  let (_, s) := sendAll s header
  sendLoop s data 0 data.length

/-- `MessageParser::sendAuthResponce`. -/
def sendAuthResponce (msg : ParsedMessage) (uuid : Block 16) (_restoreSeqNum : UInt64)
    (s : Socket) : ParsedMessage × Socket :=
  let fields := msg.fields.write 0 [MessageType.authResponse.toByte] (by simp)
  let fields := fields.write 1 uuid.1 (by rw [uuid.2]; omega)
  -- the argument `restore_seq_num` is not used: the field is set to 0
  let fields := fields.write 17 (leBytes 8 0) (by simp)
  let msg := { msg with fields := fields, sizeHeader := Int32.ofNat sizeofAuthResponse }
  let resp := (msg.fields.read 0 sizeofAuthResponse (by decide)).1
  (msg, (sendAll s resp).2)

/-- `MessageParser::sendAuthRequest`. -/
def sendAuthRequest (msg : ParsedMessage) (uuid : Block 16) (s : Socket) :
    ParsedMessage × Socket :=
  let fields := msg.fields.write 0 [MessageType.authRequest.toByte] (by simp)
  let fields := fields.write 1 uuid.1 (by rw [uuid.2]; omega)
  let msg := { msg with fields := fields, sizeHeader := Int32.ofNat sizeofAuthRequest }
  let resp := (msg.fields.read 0 sizeofAuthRequest (by decide)).1
  (msg, (sendAll s resp).2)

/-- `MessageParser::sendDataPkt`, for the `data_size` bytes at `data`. -/
def sendDataPkt (msg : ParsedMessage) (seqNum : UInt64) (data : Bytes) (s : Socket) :
    ParsedMessage × Socket :=
  let fields := msg.fields.write 0 [MessageType.dataPkt.toByte] (by simp)
  let fields := fields.write 1 (leBytes 8 seqNum.toNat) (by simp)
  let fields := fields.write 9 (leBytes 4 (UInt32.ofNat data.length).toNat) (by simp)
  let msg := { msg with
    fields := fields, sizeHeader := Int32.ofNat (sizeofDataPktHeader + data.length) }
  let resp := (msg.fields.read 0 sizeofDataPktHeader (by decide)).1
  -- `resp` is sent here, and once more by `sendPacketPayload`
  let (_, s) := sendAll s resp
  (msg, (sendPacketPayload s resp data).2)

/-! ## Parsing what is buffered -/

/-- The receive state of a `MessageParser`. -/
structure MessageParser where
  recvBuffer : Bytes
  parsedBytes : ℕ
  isTimeout : Bool
  deriving DecidableEq

/-- A freshly constructed parser. -/
def MessageParser.new : MessageParser := ⟨[], 0, false⟩

/-- A read the C++ object model gives no meaning. -/
inductive Fault
  | outOfBounds
  deriving DecidableEq, Repr

/-- `a - b` on `size_t`: a negative difference wraps around. -/
def subSize (a b : ℕ) : ℕ := if b ≤ a then a - b else 2 ^ 64 - (b - a)

/-- Read `len` bytes of the buffer at offset `off`. -/
def peek (buf : Bytes) (off len : ℕ) : Except Fault (Block len) :=
  if h : off + len ≤ buf.length then
    .ok ⟨(buf.drop off).take len, by rw [List.length_take, List.length_drop]; omega⟩
  else .error .outOfBounds

namespace MessageParser

/-- `recv_buffer_.size() - parsed_bytes_`. -/
def unparsedSize (p : MessageParser) : ℕ := subSize p.recvBuffer.length p.parsedBytes

/-- `MessageParser::parseAuthRequest`. -/
def parseAuthRequest (p : MessageParser) (result : ParsedMessage) :
    Except Fault (Bool × MessageParser × ParsedMessage) := do
  if p.unparsedSize < sizeofAuthRequest then
    return (false, p, result)
  let bytes ← peek p.recvBuffer p.parsedBytes sizeofAuthRequest
  let result := { result with
    type := .authRequest
    fields := result.fields.write 0 bytes.1 (by rw [bytes.2]; decide) }
  return (true, { p with parsedBytes := p.parsedBytes + sizeofAuthRequest }, result)

/-- `MessageParser::parseAuthResponse`. -/
def parseAuthResponse (p : MessageParser) (result : ParsedMessage) :
    Except Fault (Bool × MessageParser × ParsedMessage) := do
  if p.unparsedSize < sizeofAuthResponse then
    return (false, p, result)
  let bytes ← peek p.recvBuffer p.parsedBytes sizeofAuthResponse
  let result := { result with
    type := .authResponse
    fields := result.fields.write 0 bytes.1 (by rw [bytes.2]; decide) }
  return (true, { p with parsedBytes := p.parsedBytes + sizeofAuthResponse }, result)

/-- `MessageParser::parseDataPacket`. -/
def parseDataPacket (p : MessageParser) (result : ParsedMessage) :
    Except Fault (Bool × MessageParser × ParsedMessage) := do
  if p.unparsedSize < sizeofDataPktHeader then
    return (false, p, result)
  let header ← peek p.recvBuffer p.parsedBytes sizeofDataPktHeader
  let dataSize := (DataPktHeader.ofBlock header).dataSize.toNat
  let totalSize := sizeofDataPktHeader + dataSize
  if p.unparsedSize < totalSize then
    return (false, p, result)
  let data ← peek p.recvBuffer (p.parsedBytes + sizeofDataPktHeader) dataSize
  let result := { result with
    type := .dataPkt
    fields := result.fields.write 0 header.1 (by rw [header.2]; decide)
    packetData := data.1 }
  return (true, { p with parsedBytes := p.parsedBytes + totalSize }, result)

/-- `MessageParser::tryParseMessage`. -/
def tryParseMessage (p : MessageParser) (result : ParsedMessage) :
    Except Fault (Bool × MessageParser × ParsedMessage) := do
  if p.unparsedSize < sizeofMessageType then
    return (false, p, result)
  let type ← peek p.recvBuffer p.parsedBytes sizeofMessageType
  if type.1 = [MessageType.authRequest.toByte] then
    p.parseAuthRequest result
  else if type.1 = [MessageType.authResponse.toByte] then
    p.parseAuthResponse result
  else if type.1 = [MessageType.dataPkt.toByte] then
    p.parseDataPacket result
  else
    -- unknown type: skip one byte
    return (false, { p with parsedBytes := p.parsedBytes + 1 }, result)

end MessageParser

/-! ## Reading from the socket -/

/-- The bytes one `recv` into the 1024-byte `temp_buf` delivers. -/
abbrev Piece := Chunk 1024

/-- What one `recv` call answers. -/
inductive RecvAnswer
  | received (piece : Piece)
  /-- `0`: the peer has closed. -/
  | closed
  /-- `-1` with `EAGAIN` or `EWOULDBLOCK`. -/
  | wouldBlock
  /-- `-1` with any other `errno`. -/
  | failed

namespace MessageParser

/-- `MessageParser::readAvailable`, given the answer to its `recv`. -/
def readAvailable (p : MessageParser) : RecvAnswer → Bool × MessageParser
  | .received piece => (true, { p with recvBuffer := p.recvBuffer ++ piece.1 })
  | .closed => (false, p)
  | .wouldBlock => (true, { p with isTimeout := true })
  | .failed => (false, p)

/-- A completed `readMessage` call: its result, the state it leaves, and the `recv` answers
not consumed. -/
structure Returned where
  ret : Bool
  result : ParsedMessage
  parser : MessageParser
  answers : List RecvAnswer

/-- `MessageParser::readMessage`: each turn of its loop consumes one `recv` answer.  Without a
further answer the call blocks (`none`). -/
def readMessage (waitTimeout : Bool) (result : ParsedMessage) (p : MessageParser) :
    List RecvAnswer → Except Fault (Option Returned)
  | [] => .ok none
  | answer :: answers => do
    let (available, p) := p.readAvailable answer
    if available = false then
      return some ⟨false, result, p, answers⟩
    if p.isTimeout then
      let p := { p with isTimeout := false }
      if waitTimeout then
        readMessage waitTimeout result p answers
      else
        return some ⟨false, result, p, answers⟩
    else
      let (parsed, p, result) ← p.tryParseMessage result
      if parsed then
        return some ⟨true, result, p, answers⟩
      else
        readMessage waitTimeout result p answers

/-- Successive `readMessage` calls, each given its `wait_timeout` and result object: what the
calls that return report, up to the first call that blocks. -/
def readMessages : List (Bool × ParsedMessage) → MessageParser → List RecvAnswer →
    Except Fault (List (Bool × ParsedMessage))
  | [], _, _ => .ok []
  | (waitTimeout, result) :: calls, p, answers => do
    match ← readMessage waitTimeout result p answers with
    | none => return []
    | some r => return (r.ret, r.result) :: (← readMessages calls r.parser r.answers)

end MessageParser

end ClientServer.Netlib
