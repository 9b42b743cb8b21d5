import ClientServer.Library.Framing
import ClientServer.Netlib.Serialization

/-!
# The wire format as a frame code

`Frame` is what the three packed structures of `serialization.h` are for: a handshake request,
a handshake response, or a sequence-numbered data packet.  `Frame.encode` lays a frame out on
the wire and `Frame.decode` reads the frame at the start of a run of bytes; `frameCode` packages
them as a `FrameCode`, so everything `Library/Framing.lean` says about streams applies.

The parser is connected to it by `tryParseMessage_of_decode_some` and
`tryParseMessage_of_decode_none`: on any buffer whose cursor is in range, `tryParseMessage`
accepts exactly the frame that `Frame.decode` finds in the unparsed bytes, and reads nothing
out of bounds.
-/

namespace ClientServer.Netlib

/-- A message as the protocol understands it. -/
inductive Frame
  | authRequest (clientUuid : Block 16)
  | authResponse (clientUuid : Block 16) (restoreSeqNum : UInt64)
  | dataPkt (seqNum : UInt64) (payload : {bs : Bytes // bs.length < 2 ^ 32})
  deriving DecidableEq

namespace Frame

/-- The bytes of a frame on the wire. -/
def encode : Frame → Bytes
  | .authRequest u => [1] ++ u.1
  | .authResponse u r => [2] ++ (u.1 ++ leBytes 8 r.toNat)
  | .dataPkt s d => [3] ++ (leBytes 8 s.toNat ++ (leBytes 4 d.1.length ++ d.1))

/-- The first `n` of at least `n` bytes, as a block. -/
def prefixBlock (bs : Bytes) (n : ℕ) (h : n ≤ bs.length) : Block n :=
  ⟨bs.take n, by rw [List.length_take]; omega⟩

lemma prefixBlock_append {xs rest : Bytes} {n : ℕ} (h : n ≤ (xs ++ rest).length)
    (hn : xs.length = n) : (prefixBlock (xs ++ rest) n h).1 = xs :=
  List.take_left' hn

/-- The frame at the start of a run of bytes, and its length. -/
def decode (bs : Bytes) : Option (Frame × ℕ) :=
  if bs.take 1 = [1] then
    if h : 17 ≤ bs.length then
      some (.authRequest (AuthRequest.ofBlock (prefixBlock bs 17 h)).clientUuid, 17)
    else none
  else if bs.take 1 = [2] then
    if h : 25 ≤ bs.length then
      let response := AuthResponse.ofBlock (prefixBlock bs 25 h)
      some (.authResponse response.clientUuid response.restoreSeqNum, 25)
    else none
  else if bs.take 1 = [3] then
    if h : 13 ≤ bs.length then
      let header := DataPktHeader.ofBlock (prefixBlock bs 13 h)
      let size := header.dataSize.toNat
      if 13 + size ≤ bs.length then
        some (.dataPkt header.seqNum ⟨(bs.drop 13).take size, by
          have := header.dataSize.toNat_lt
          rw [List.length_take]
          omega⟩, 13 + size)
      else none
    else none
  else none

lemma length_encode_authRequest (u : Block 16) : (encode (.authRequest u)).length = 17 := by
  simp [encode, u.2]

lemma length_encode_authResponse (u : Block 16) (r : UInt64) :
    (encode (.authResponse u r)).length = 25 := by
  simp [encode, u.2]

lemma length_encode_dataPkt (s : UInt64) (d : {bs : Bytes // bs.length < 2 ^ 32}) :
    (encode (.dataPkt s d)).length = 13 + d.1.length := by
  simp only [encode, List.length_append, List.length_cons, List.length_nil, length_leBytes]
  omega

/-! ## Reading the packed structures back -/

lemma authRequest_ofBlock {b : Block 17} {t : UInt8} {u : Block 16} (h : b.1 = [t] ++ u.1) :
    AuthRequest.ofBlock b = ⟨t, u⟩ := by
  have htype : (b.read 0 1 (by omega)).1 = [t] := by simp [Block.read, h]
  have huuid : b.read 1 16 (by omega) = u := by
    apply Subtype.ext
    simp only [Block.read, h, List.singleton_append, List.drop_succ_cons, List.drop_zero]
    exact List.take_of_length_le (by rw [u.2])
  simp [AuthRequest.ofBlock, htype, huuid]

lemma authResponse_ofBlock {b : Block 25} {t : UInt8} {u : Block 16} {r : UInt64}
    (h : b.1 = [t] ++ (u.1 ++ leBytes 8 r.toNat)) : AuthResponse.ofBlock b = ⟨t, u, r⟩ := by
  have htype : (b.read 0 1 (by omega)).1 = [t] := by simp [Block.read, h]
  have huuid : b.read 1 16 (by omega) = u := by
    apply Subtype.ext
    simp only [Block.read, h, List.singleton_append, List.drop_succ_cons, List.drop_zero]
    rw [List.take_append_of_le_length (by rw [u.2]), List.take_of_length_le (by rw [u.2])]
  have hseq : (b.read 17 8 (by omega)).1 = leBytes 8 r.toNat := by
    simp only [Block.read, h, List.singleton_append, List.drop_succ_cons]
    rw [List.drop_append_of_le_length (by rw [u.2]), List.drop_of_length_le (by rw [u.2]),
      List.nil_append, List.take_of_length_le (by simp)]
  have hval : UInt64.ofNat (leValue (leBytes 8 r.toNat)) = r := by
    have hlt := r.toNat_lt
    rw [leValue_leBytes, Nat.mod_eq_of_lt (by omega), UInt64.ofNat_toNat]
  simp [AuthResponse.ofBlock, htype, huuid, hseq, hval]

lemma dataPktHeader_ofBlock {b : Block 13} {t : UInt8} {s : UInt64} {n : ℕ} (hn : n < 2 ^ 32)
    (h : b.1 = [t] ++ (leBytes 8 s.toNat ++ leBytes 4 n)) :
    DataPktHeader.ofBlock b = ⟨t, s, UInt32.ofNat n⟩ := by
  have htype : (b.read 0 1 (by omega)).1 = [t] := by simp [Block.read, h]
  have hseq : (b.read 1 8 (by omega)).1 = leBytes 8 s.toNat := by
    simp only [Block.read, h, List.singleton_append, List.drop_succ_cons, List.drop_zero]
    rw [List.take_append_of_le_length (by simp), List.take_of_length_le (by simp)]
  have hsize : (b.read 9 4 (by omega)).1 = leBytes 4 n := by
    simp only [Block.read, h, List.singleton_append, List.drop_succ_cons]
    rw [List.drop_append_of_le_length (by simp), List.drop_of_length_le (by simp),
      List.nil_append, List.take_of_length_le (by simp)]
  have hval : UInt64.ofNat (leValue (leBytes 8 s.toNat)) = s := by
    have hlt := s.toNat_lt
    rw [leValue_leBytes, Nat.mod_eq_of_lt (by omega), UInt64.ofNat_toNat]
  have hnval : leValue (leBytes 4 n) = n := by
    rw [leValue_leBytes, Nat.mod_eq_of_lt (by omega)]
  simp [DataPktHeader.ofBlock, htype, hseq, hsize, hval, hnval]

/-! ## The frame code -/

lemma decode_encode_append (f : Frame) (rest : Bytes) :
    decode (encode f ++ rest) = some (f, (encode f).length) := by
  cases f with
  | authRequest u =>
    have hlen : 17 ≤ (encode (.authRequest u) ++ rest).length := by
      rw [List.length_append, length_encode_authRequest]
      omega
    have hblock : (prefixBlock _ 17 hlen).1 = [1] ++ u.1 :=
      prefixBlock_append hlen (length_encode_authRequest u)
    rw [decode, if_pos (by simp [encode]), dif_pos hlen, authRequest_ofBlock hblock,
      length_encode_authRequest]
  | authResponse u r =>
    have hlen : 25 ≤ (encode (.authResponse u r) ++ rest).length := by
      rw [List.length_append, length_encode_authResponse]
      omega
    have hblock : (prefixBlock _ 25 hlen).1 = [2] ++ (u.1 ++ leBytes 8 r.toNat) :=
      prefixBlock_append hlen (length_encode_authResponse u r)
    rw [decode, if_neg (by simp [encode]), if_pos (by simp [encode]), dif_pos hlen,
      authResponse_ofBlock hblock, length_encode_authResponse]
  | dataPkt s d =>
    have hlen : 13 ≤ (encode (.dataPkt s d) ++ rest).length := by
      rw [List.length_append, length_encode_dataPkt]
      omega
    have hsplit : encode (.dataPkt s d) ++ rest =
        ([3] ++ (leBytes 8 s.toNat ++ leBytes 4 d.1.length)) ++ (d.1 ++ rest) := by
      simp only [encode, List.append_assoc]
    have hblock : (prefixBlock _ 13 hlen).1 =
        [3] ++ (leBytes 8 s.toNat ++ leBytes 4 d.1.length) := by
      rw [prefixBlock]
      simp only [hsplit]
      exact List.take_left' (by simp)
    have hsize : (UInt32.ofNat d.1.length).toNat = d.1.length := by
      rw [UInt32.toNat_ofNat', Nat.mod_eq_of_lt d.2]
    have hpayload : ((encode (.dataPkt s d) ++ rest).drop 13).take d.1.length = d.1 := by
      rw [hsplit, List.drop_left' (by simp), List.take_left']
      rfl
    rw [decode, if_neg (by simp [encode]), if_neg (by simp [encode]),
      if_pos (by simp [encode]), dif_pos hlen]
    simp only [dataPktHeader_ofBlock d.2 hblock, hsize, hpayload, length_encode_dataPkt]
    rw [if_pos (by rw [List.length_append, length_encode_dataPkt]; omega)]

/-- Part of a frame keeps the type byte but not the length. -/
lemma decode_take (f : Frame) (n : ℕ) (hn : n < (encode f).length) :
    decode ((encode f).take n) = none := by
  cases n with
  | zero => simp [decode]
  | succ n =>
    cases f with
    | authRequest u =>
      rw [length_encode_authRequest] at hn
      rw [decode, if_pos (by simp [encode]), dif_neg]
      rw [List.length_take]
      omega
    | authResponse u r =>
      rw [length_encode_authResponse] at hn
      rw [decode, if_neg (by simp [encode]), if_pos (by simp [encode]), dif_neg]
      rw [List.length_take]
      omega
    | dataPkt s d =>
      rw [decode, if_neg (by simp [encode]), if_neg (by simp [encode]),
        if_pos (by simp [encode])]
      have hlen := length_encode_dataPkt s d
      have htake : ((encode (.dataPkt s d)).take (n + 1)).length = n + 1 := by
        rw [List.length_take]
        omega
      split_ifs with h13
      · have hblock : (prefixBlock _ 13 h13).1 =
            [3] ++ (leBytes 8 s.toNat ++ leBytes 4 d.1.length) := by
          have hmin : min 13 (n + 1) = 13 := by omega
          have hsplit : encode (.dataPkt s d) =
              ([3] ++ (leBytes 8 s.toNat ++ leBytes 4 d.1.length)) ++ d.1 := by
            simp only [encode, List.append_assoc]
          rw [prefixBlock]
          simp only [List.take_take, hmin]
          rw [hsplit]
          exact List.take_left' (by simp)
        have hsize : (UInt32.ofNat d.1.length).toNat = d.1.length := by
          rw [UInt32.toNat_ofNat', Nat.mod_eq_of_lt d.2]
        simp only [dataPktHeader_ofBlock d.2 hblock, hsize]
        rw [if_neg (by omega)]
      · rfl

lemma encode_ne_nil (f : Frame) : encode f ≠ [] := by
  cases f <;> simp [encode]

end Frame

/-- The wire format of `serialization.h`. -/
def frameCode : FrameCode Frame UInt8 where
  encode := Frame.encode
  decode := Frame.decode
  encode_ne_nil := Frame.encode_ne_nil
  decode_nil := by simp [Frame.decode]
  decode_encode_append := Frame.decode_encode_append
  decode_take := Frame.decode_take

end ClientServer.Netlib
