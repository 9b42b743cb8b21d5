import ClientServer.Netlib.SendPath

/-!
# The handshake messages

`sendAuthRequest` and `sendAuthResponce` fill a member of the union field by field and send it
with `sendAll`.  `Handshake` is a call of one of them with its arguments; `Handshake.frame` is
the frame that the arguments ask for, and `Handshake.sentFrame` the one that goes out
(`send_wire`).  They are the same but for the `restore_seq_num` of a response.
-/

namespace ClientServer.Netlib

open MessageParser

/-- A call that sends a handshake message. -/
inductive Handshake
  | request (uuid : Block 16)
  | response (uuid : Block 16) (restoreSeqNum : UInt64)
  deriving DecidableEq

namespace Handshake

/-- The call. -/
def send (h : Handshake) (msg : ParsedMessage) (s : Socket) : ParsedMessage × Socket :=
  match h with
  | .request uuid => sendAuthRequest msg uuid s
  | .response uuid restoreSeqNum => sendAuthResponce msg uuid restoreSeqNum s

/-- The position to resume from; a request has none. -/
def restoreSeqNum : Handshake → UInt64
  | .request _ => 0
  | .response _ restoreSeqNum => restoreSeqNum

/-- The message asked for. -/
def frame : Handshake → Frame
  | .request uuid => .authRequest uuid
  | .response uuid restoreSeqNum => .authResponse uuid restoreSeqNum

/-- The message sent. -/
def sentFrame : Handshake → Frame
  | .request uuid => .authRequest uuid
  | .response uuid _ => .authResponse uuid 0

/-- One `tryParseMessage` on `bytes`, behind bytes already parsed and in front of any others,
returns the message asked for and ends behind `bytes`. -/
def RoundTrips (h : Handshake) (bytes parsed rest : Bytes) (timeout : Bool)
    (result : ParsedMessage) : Prop :=
  ∃ result', tryParseMessage ⟨parsed ++ bytes ++ rest, parsed.length, timeout⟩ result =
      .ok (true, ⟨parsed ++ bytes ++ rest, (parsed ++ bytes).length, timeout⟩, result') ∧
    result'.toFrame = some h.frame

/-! ## What goes out -/

/-- Filling the union's `auth_request` field by field. -/
lemma read_authRequest (b : Block 25) (uuid : Block 16) :
    ((((b.write 0 [MessageType.authRequest.toByte] (by simp)).write 1 uuid.1
      (by rw [uuid.2]; omega))).read 0 sizeofAuthRequest (by decide)).1 =
        frameCode.encode (.authRequest uuid) := by
  set b₁ := b.write 0 [MessageType.authRequest.toByte] (by simp) with hb₁
  have h₁ : b₁.1.take 1 = [MessageType.authRequest.toByte] := by
    rw [hb₁, b.take_write _ (by simp), List.take_zero, List.nil_append]
  simp only [Block.read, List.drop_zero]
  rw [b₁.take_write _ (by rw [uuid.2]), h₁]
  rfl

/-- Filling the union's `auth_response`; the last field is always `0`. -/
lemma read_authResponse (b : Block 25) (uuid : Block 16) :
    ((((b.write 0 [MessageType.authResponse.toByte] (by simp)).write 1 uuid.1
      (by rw [uuid.2]; omega)).write 17 (leBytes 8 0) (by simp)).read 0 sizeofAuthResponse
        (by decide)).1 = frameCode.encode (.authResponse uuid 0) := by
  set b₁ := b.write 0 [MessageType.authResponse.toByte] (by simp) with hb₁
  set b₂ := b₁.write 1 uuid.1 (by rw [uuid.2]; omega) with hb₂
  have h₁ : b₁.1.take 1 = [MessageType.authResponse.toByte] := by
    rw [hb₁, b.take_write _ (by simp), List.take_zero, List.nil_append]
  have h₂ : b₂.1.take 17 = [MessageType.authResponse.toByte] ++ uuid.1 := by
    rw [hb₂, b₁.take_write _ (by rw [uuid.2]), h₁]
  simp only [Block.read, List.drop_zero]
  rw [b₂.take_write _ (by simp), h₂, List.append_assoc]
  rfl

/-- **What one call puts on the wire.** -/
lemma send_wire {s : Socket} (hs : s.AcceptsAll) (h : Handshake) (msg : ParsedMessage) :
    (h.send msg s).2.wire = s.wire ++ frameCode.encode h.sentFrame := by
  cases h with
  | request uuid =>
    obtain ⟨c, hc⟩ := sendAll_eq hs (frameCode.encode (.authRequest uuid))
    simp only [send, sendAuthRequest, read_authRequest, hc, sentFrame]
  | response uuid restoreSeqNum =>
    obtain ⟨c, hc⟩ := sendAll_eq hs (frameCode.encode (.authResponse uuid 0))
    simp only [send, sendAuthResponce, read_authResponse, hc, sentFrame]

/-! ## The round trip -/

/-- One `tryParseMessage` in front of a whole frame returns it. -/
lemma tryParseMessage_encode (f : Frame) (parsed rest : Bytes) (timeout : Bool)
    (result : ParsedMessage) :
    ∃ result', tryParseMessage ⟨parsed ++ frameCode.encode f ++ rest, parsed.length, timeout⟩
        result = .ok (true, ⟨parsed ++ frameCode.encode f ++ rest,
          (parsed ++ frameCode.encode f).length, timeout⟩, result') ∧
      result'.toFrame = some f := by
  set p : MessageParser := ⟨parsed ++ frameCode.encode f ++ rest, parsed.length, timeout⟩ with hp
  have hcursor : p.parsedBytes ≤ p.recvBuffer.length := by
    rw [hp]
    simp only [List.length_append]
    omega
  have hunparsed : p.unparsed = frameCode.encode f ++ rest := by
    rw [unparsed, hp]
    simp only [List.append_assoc, List.drop_left]
  have hdecode : Frame.decode p.unparsed = some (f, (frameCode.encode f).length) := by
    rw [hunparsed]
    exact frameCode.decode_encode_append f rest
  obtain ⟨result', hparse, hframe⟩ := tryParseMessage_of_decode_some result hcursor hdecode
  refine ⟨result', ?_, hframe⟩
  rw [hparse, advance, hp, List.length_append]

lemma frame_eq_sentFrame_iff (h : Handshake) : h.sentFrame = h.frame ↔ h.restoreSeqNum = 0 := by
  cases h with
  | request uuid => simp [frame, sentFrame, restoreSeqNum]
  | response uuid restoreSeqNum =>
    simp only [frame, sentFrame, Handshake.restoreSeqNum, Frame.authResponse.injEq, true_and]
    exact eq_comm

/-- **A handshake message round-trips exactly if it resumes from `0`**, which every request
does.  Whatever the message object held before, in partial sends of any sizes, and wherever the
bytes stand in the receiver's buffer. -/
theorem roundTrips_send_iff (h : Handshake) (msg : ParsedMessage) (s : Socket)
    (hs : s.AcceptsAll) (parsed rest : Bytes) (timeout : Bool) (result : ParsedMessage) :
    h.RoundTrips ((h.send msg s).2.wire.drop s.wire.length) parsed rest timeout result ↔
      h.restoreSeqNum = 0 := by
  have hbytes : (h.send msg s).2.wire.drop s.wire.length = frameCode.encode h.sentFrame := by
    rw [send_wire hs, List.drop_left]
  obtain ⟨sent, hparse, hframe⟩ :=
    tryParseMessage_encode h.sentFrame parsed rest timeout result
  rw [hbytes, ← frame_eq_sentFrame_iff]
  constructor
  · rintro ⟨result', hparse', hframe'⟩
    rw [hparse] at hparse'
    obtain rfl : sent = result' := by
      injection hparse' with hpair
      injection hpair with _ hpair
      injection hpair
    rw [hframe] at hframe'
    exact Option.some.inj hframe'
  · intro heq
    exact ⟨sent, hparse, by rw [hframe, heq]⟩

/-- A uuid of zeros. -/
def zeroUuid : Block 16 := ⟨List.replicate 16 0, rfl⟩

/-- A uuid of sixteen different bytes. -/
def sampleUuid : Block 16 := ⟨[0, 1, 2, 3, 4, 5, 6, 7, 8, 9, 10, 11, 12, 13, 14, 15], rfl⟩

/-- A request that an object with an earlier payload sends one byte at a time, to a receiver with
other bytes in its buffer. -/
theorem roundTrips_send_iff_request :
    (request sampleUuid).RoundTrips
      (((request sampleUuid).send { blankMessage with packetData := [42] }
        byteSocket).2.wire.drop byteSocket.wire.length)
      [9, 9] [1, 2] true { blankMessage with packetData := [43] } :=
  (roundTrips_send_iff _ _ byteSocket (fun _ => ⟨0, rfl⟩) _ _ _ _).mpr rfl

/-- A response that asks to resume from `1` arrives as one that resumes from `0`. -/
theorem not_roundTrips_resume_from_one :
    ¬ ∀ (h : Handshake) (msg : ParsedMessage) (s : Socket), s.AcceptsAll →
      ∀ (parsed rest : Bytes) (timeout : Bool) (result : ParsedMessage),
        h.RoundTrips ((h.send msg s).2.wire.drop s.wire.length) parsed rest timeout result := by
  intro hall
  obtain ⟨result', hparse, hframe⟩ := hall (response zeroUuid 1) blankMessage byteSocket
    (fun _ => ⟨0, rfl⟩) [] [] false blankMessage
  rw [send_wire (fun _ => ⟨0, rfl⟩), List.drop_left] at hparse
  obtain ⟨sent, hparse', hframe'⟩ :=
    tryParseMessage_encode (response zeroUuid 1).sentFrame [] [] false blankMessage
  rw [hparse'] at hparse
  cases hparse
  rw [hframe'] at hframe
  exact absurd hframe (by decide)

end Handshake

end ClientServer.Netlib
