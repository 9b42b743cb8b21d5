import ClientServer.Netlib.Parsing
import Mathlib.Data.List.ReduceOption

/-!
# The receive path: `readMessage` over a chunked stream

A peer sends a concatenation of frames; `recv` delivers it in pieces of 1 to 1024 bytes, with
timeouts in between, and may stop or fail at any point.  `Synced` ties the parser to the
stream: what is buffered is the first `m` bytes, and the cursor stands where frame `j` starts.
Every turn of the loop in `readMessage` preserves it (`Synced.receive`, `Synced.attempt`), and
the two results about whole runs follow by induction on the `recv` answers.

* `readMessages_prefix`: the messages returned are a prefix of the frames sent, whatever the
  chunking, the timeouts, the `wait_timeout` arguments and the end of the stream.
* `returnsEveryFrame_iff_noBacklog`: with `wait_timeout` set and an orderly close, *all* frames are
  returned exactly when `NoBacklog` holds of the pieces.  `readMessage` calls `recv` before it
  looks at what is buffered, so it makes one attempt per piece: when one piece completes two
  frames and no piece follows, the second stays in the buffer and the close ends the run.
-/

namespace ClientServer.Netlib

open MessageParser

/-- The bytes that a sequence of pieces carries. -/
def pieceBytes (pieces : List Piece) : Bytes := pieces.flatMap Subtype.val

/-- The bytes that a sequence of `recv` answers delivers. -/
def received : List RecvAnswer → Bytes
  | [] => []
  | .received piece :: answers => piece.1 ++ received answers
  | _ :: answers => received answers

/-- The messages of the calls that returned true. -/
def messages (outs : List (Bool × ParsedMessage)) : List (Option Frame) :=
  (outs.filter (·.1)).map (·.2.toFrame)

/-! ## One turn of the loop -/

/-- The parser has buffered the first `m` bytes of the stream and returned its first `j`
frames. -/
structure Synced (frames : List Frame) (m j : ℕ) (p : MessageParser) : Prop where
  buffer : p.recvBuffer = (frameCode.encodeAll frames).take m
  received_le : m ≤ (frameCode.encodeAll frames).length
  cursor : p.parsedBytes = frameCode.offset frames j
  returned_le : j ≤ frameCode.wholeFrames frames m
  noTimeout : p.isTimeout = false

namespace Synced

variable {frames : List Frame} {m j : ℕ} {p : MessageParser}

lemma new (frames : List Frame) : Synced frames 0 0 MessageParser.new where
  buffer := by simp [MessageParser.new]
  received_le := Nat.zero_le _
  cursor := by simp [MessageParser.new]
  returned_le := Nat.zero_le _
  noTimeout := rfl

lemma cursor_le (h : Synced frames m j p) : p.parsedBytes ≤ p.recvBuffer.length := by
  have hle := frameCode.offset_le_of_le_wholeFrames frames h.returned_le
  have hm := h.received_le
  rw [h.buffer, h.cursor, List.length_take]
  omega

/-- Appending the next piece of the stream. -/
lemma receive (h : Synced frames m j p) (bs rest : Bytes)
    (hstream : (frameCode.encodeAll frames).take m ++ (bs ++ rest) <+:
      frameCode.encodeAll frames) :
    Synced frames (m + bs.length) j { p with recvBuffer := p.recvBuffer ++ bs } := by
  have hm := h.received_le
  have hbs : (frameCode.encodeAll frames).take m ++ bs <+: frameCode.encodeAll frames := by
    rw [← List.append_assoc] at hstream
    exact (List.prefix_append _ rest).trans hstream
  have hlen : ((frameCode.encodeAll frames).take m ++ bs).length = m + bs.length := by
    rw [List.length_append, List.length_take]
    omega
  refine ⟨?_, ?_, h.cursor, ?_, h.noTimeout⟩
  · rw [h.buffer, List.prefix_iff_eq_take.mp hbs, hlen]
  · rw [← hlen]
    exact hbs.length_le
  · exact h.returned_le.trans (frameCode.wholeFrames_mono frames (Nat.le_add_right m _))

/-- Appending the next piece leaves the stream cut after it. -/
lemma take_receive (h : Synced frames m j p) (bs rest : Bytes)
    (hstream : (frameCode.encodeAll frames).take m ++ (bs ++ rest) <+:
      frameCode.encodeAll frames) :
    (frameCode.encodeAll frames).take (m + bs.length) ++ rest =
      (frameCode.encodeAll frames).take m ++ (bs ++ rest) := by
  have hbuf : p.recvBuffer ++ bs = (frameCode.encodeAll frames).take (m + bs.length) :=
    (h.receive bs rest hstream).buffer
  rw [← hbuf, h.buffer, List.append_assoc]

/-- One `tryParseMessage` on a synced parser: it returns the next frame if that is all there
and leaves everything as it is otherwise. -/
lemma attempt (h : Synced frames m j p) (result : ParsedMessage) :
    (j < frameCode.wholeFrames frames m ∧ ∃ hj : j < frames.length, ∃ p' result',
      p.tryParseMessage result = .ok (true, p', result') ∧
      result'.toFrame = some frames[j] ∧ Synced frames m (j + 1) p') ∨
    (j = frameCode.wholeFrames frames m ∧
      p.tryParseMessage result = .ok (false, p, result)) := by
  have hunparsed : p.unparsed =
      ((frameCode.encodeAll frames).take m).drop (frameCode.offset frames j) := by
    rw [unparsed, h.buffer, h.cursor]
  rcases frameCode.decode_at frames h.returned_le with ⟨hj, hlt, hdec⟩ | ⟨heq, hpartial⟩
  · rw [← hunparsed] at hdec
    obtain ⟨result', hparse, hframe⟩ :=
      tryParseMessage_of_decode_some result h.cursor_le hdec
    refine Or.inl ⟨hlt, hj, _, result', hparse, hframe, ?_⟩
    refine ⟨h.buffer, h.received_le, ?_, hlt, h.noTimeout⟩
    rw [advance, frameCode.offset_succ frames hj, h.cursor]
  · rw [← hunparsed] at hpartial
    have hparse := tryParseMessage_of_decode_none result h.cursor_le
      (frameCode.decode_eq_none hpartial)
    rw [skipped_eq_zero hpartial] at hparse
    exact Or.inr ⟨heq, hparse⟩

end Synced

/-! ## `readMessage`, answer by answer -/

section Equations

variable {p : MessageParser} {wait : Bool} {result : ParsedMessage}
  {calls : List (Bool × ParsedMessage)} {answers : List RecvAnswer}

/-- No call returns where nothing more comes. -/
lemma readMessages_nil : readMessages calls p [] = .ok [] := by
  rcases calls with _ | ⟨⟨wait, result⟩, calls⟩
  · rfl
  · simp [readMessages, readMessage, bind, Except.bind, pure, Except.pure]

/-- A call that returns hands its state and the remaining answers to the next one. -/
lemma readMessages_of_returned {r : Returned}
    (h : readMessage wait result p answers = .ok (some r)) :
    readMessages ((wait, result) :: calls) p answers =
      (readMessages calls r.parser r.answers).map ((r.ret, r.result) :: ·) := by
  rw [readMessages, h]
  simp only [bind, Except.bind]
  cases readMessages calls r.parser r.answers <;> rfl

lemma readMessages_congr {p' : MessageParser} {answers' : List RecvAnswer}
    (h : readMessage wait result p answers = readMessage wait result p' answers') :
    readMessages ((wait, result) :: calls) p answers =
      readMessages ((wait, result) :: calls) p' answers' := by
  rw [readMessages, h, readMessages]

/-- A close or an error ends the call. -/
lemma readMessages_ended {answer : RecvAnswer}
    (h : answer = .closed ∨ answer = .failed) :
    readMessages ((wait, result) :: calls) p (answer :: answers) =
      (readMessages calls p answers).map ((false, result) :: ·) := by
  rcases h with rfl | rfl
  · exact readMessages_of_returned (r := ⟨false, result, p, answers⟩) rfl
  · exact readMessages_of_returned (r := ⟨false, result, p, answers⟩) rfl

/-- A timeout ends the call unless it was asked to wait. -/
lemma readMessages_timeout (hp : p.isTimeout = false) :
    readMessages ((wait, result) :: calls) p (.wouldBlock :: answers) =
      if wait then readMessages ((wait, result) :: calls) p answers
      else (readMessages calls p answers).map ((false, result) :: ·) := by
  obtain ⟨buf, cur, timeout⟩ := p
  obtain rfl : timeout = false := hp
  cases wait
  · exact readMessages_of_returned (r := ⟨false, result, ⟨buf, cur, false⟩, answers⟩) rfl
  · exact readMessages_congr rfl

/-- A piece that completes a frame ends the call with that frame. -/
lemma readMessages_received {piece : Piece} {p' : MessageParser} {result' : ParsedMessage}
    (hp : p.isTimeout = false)
    (h : ({ p with recvBuffer := p.recvBuffer ++ piece.1 } : MessageParser).tryParseMessage
      result = .ok (true, p', result')) :
    readMessages ((wait, result) :: calls) p (.received piece :: answers) =
      (readMessages calls p' answers).map ((true, result') :: ·) := by
  obtain ⟨buf, cur, timeout⟩ := p
  obtain rfl : timeout = false := hp
  have hread : readMessage wait result ⟨buf, cur, false⟩ (.received piece :: answers) =
      .ok (some ⟨true, result', p', answers⟩) := by
    simp only at h
    simp [readMessage, readAvailable, bind, Except.bind, h]
    rfl
  exact readMessages_of_returned hread

/-- A piece that completes none sends the loop round again. -/
lemma readMessages_incomplete {piece : Piece} {p' : MessageParser}
    (hp : p.isTimeout = false)
    (h : ({ p with recvBuffer := p.recvBuffer ++ piece.1 } : MessageParser).tryParseMessage
      result = .ok (false, p', result)) :
    readMessages ((wait, result) :: calls) p (.received piece :: answers) =
      readMessages ((wait, result) :: calls) p' answers := by
  obtain ⟨buf, cur, timeout⟩ := p
  obtain rfl : timeout = false := hp
  apply readMessages_congr
  simp only at h
  simp [readMessage, readAvailable, bind, Except.bind, h]

end Equations

/-! ## Nothing is invented, corrupted, duplicated or reordered -/

/-- The run lemma: from a synced parser, the messages returned are the next frames. -/
lemma messages_prefix_of_synced {frames : List Frame} (answers : List RecvAnswer) :
    ∀ (calls : List (Bool × ParsedMessage)) {p : MessageParser} {m j : ℕ},
      Synced frames m j p →
      (frameCode.encodeAll frames).take m ++ received answers <+: frameCode.encodeAll frames →
      ∃ outs, readMessages calls p answers = .ok outs ∧
        messages outs <+: (frames.drop j).map some := by
  induction answers with
  | nil =>
    intro calls p m j _ _
    exact ⟨[], readMessages_nil, List.nil_prefix⟩
  | cons answer answers ih =>
    rintro (_ | ⟨⟨wait, result⟩, calls⟩) p m j hsync hstream
    · exact ⟨[], rfl, List.nil_prefix⟩
    -- a call that ends without a message adds a `false` and nothing else
    have hfalse : received answers = received (answer :: answers) →
        ∃ outs, (readMessages calls p answers).map ((false, result) :: ·) = .ok outs ∧
          messages outs <+: (frames.drop j).map some := by
      intro heq
      obtain ⟨outs, hrun, hprefix⟩ := ih calls hsync (by rw [heq]; exact hstream)
      exact ⟨(false, result) :: outs, by rw [hrun]; rfl, by simpa [messages] using hprefix⟩
    cases answer with
    | closed =>
      rw [readMessages_ended (Or.inl rfl)]
      exact hfalse rfl
    | failed =>
      rw [readMessages_ended (Or.inr rfl)]
      exact hfalse rfl
    | wouldBlock =>
      rw [readMessages_timeout hsync.noTimeout]
      split_ifs with hwait
      · exact ih ((wait, result) :: calls) hsync hstream
      · exact hfalse rfl
    | received piece =>
      have hnext := hsync.receive _ _ hstream
      have hrest : (frameCode.encodeAll frames).take (m + piece.1.length) ++ received answers <+:
          frameCode.encodeAll frames := by
        rw [hsync.take_receive _ _ hstream]
        exact hstream
      rcases hnext.attempt result with
        ⟨-, hj, p', result', hparse, hframe, hsync'⟩ | ⟨-, hparse⟩
      · obtain ⟨outs, hrun, hprefix⟩ := ih calls hsync' hrest
        refine ⟨(true, result') :: outs, ?_, ?_⟩
        · rw [readMessages_received hsync.noTimeout hparse, hrun]
          rfl
        · rw [List.drop_eq_getElem_cons hj, List.map_cons]
          simpa [messages, hframe] using hprefix
      · obtain ⟨outs, hrun, hprefix⟩ := ih ((wait, result) :: calls) hnext hrest
        exact ⟨outs, by rw [readMessages_incomplete hsync.noTimeout hparse, hrun], hprefix⟩

/-- **The messages returned are a prefix of the frames sent**, for every split of the stream
into pieces, every placement of timeouts, every choice of `wait_timeout`, and wherever the
stream stops or fails. -/
theorem readMessages_prefix (frames : List Frame) (answers : List RecvAnswer)
    (calls : List (Bool × ParsedMessage))
    (hstream : received answers <+: frameCode.encodeAll frames) :
    ∃ outs, readMessages calls MessageParser.new answers = .ok outs ∧
      messages outs <+: frames.map some :=
  messages_prefix_of_synced answers calls (Synced.new frames) (by simpa using hstream)

/-- A data packet that arrives in two pieces with a timeout between them, and then an error:
the first call gives up at the timeout, the second returns the packet. -/
theorem readMessages_prefix_split_packet :
    ∃ outs,
      readMessages [(false, blankMessage), (true, blankMessage), (true, blankMessage)]
        MessageParser.new
        [.received ⟨[3, 7, 0, 0, 0, 0], by decide⟩, .wouldBlock,
          .received ⟨[0, 0, 0, 2, 0, 0, 0, 1, 2], by decide⟩, .failed] = .ok outs ∧
      messages outs <+: [Frame.dataPkt 7 ⟨[1, 2], by decide⟩].map some :=
  readMessages_prefix [.dataPkt 7 ⟨[1, 2], by decide⟩] _ _ (by decide)

/-! ## When every frame is returned -/

/-- How many frames of the stream are complete after each piece; `m` bytes came before. -/
def arrivals (frames : List Frame) : ℕ → List Piece → List ℕ
  | _, [] => []
  | m, piece :: pieces =>
    frameCode.wholeFrames frames (m + piece.1.length) ::
      arrivals frames (m + piece.1.length) pieces

@[simp] lemma length_arrivals (frames : List Frame) (m : ℕ) (pieces : List Piece) :
    (arrivals frames m pieces).length = pieces.length := by
  induction pieces generalizing m with
  | nil => rfl
  | cons piece pieces ih => rw [arrivals, List.length_cons, ih, List.length_cons]

lemma getElem_arrivals (frames : List Frame) (m : ℕ) (pieces : List Piece) (k : ℕ)
    (h : k < (arrivals frames m pieces).length) :
    (arrivals frames m pieces)[k] =
      frameCode.wholeFrames frames (m + (pieceBytes (pieces.take (k + 1))).length) := by
  induction pieces generalizing m k with
  | nil => simp [arrivals] at h
  | cons piece pieces ih =>
    cases k with
    | zero => simp [arrivals, pieceBytes]
    | succ k =>
      have hk := ih (m + piece.1.length) k (by simpa [arrivals] using h)
      simp only [arrivals, List.getElem_cons_succ, hk, pieceBytes, List.take_succ_cons,
        List.flatMap_cons, List.length_append, Nat.add_assoc]

lemma pairwise_arrivals (frames : List Frame) (m : ℕ) (pieces : List Piece) :
    (frameCode.wholeFrames frames m :: arrivals frames m pieces).Pairwise (· ≤ ·) := by
  induction pieces generalizing m with
  | nil => simp [arrivals]
  | cons piece pieces ih =>
    have htail := ih (m + piece.1.length)
    have hstep : frameCode.wholeFrames frames m ≤
        frameCode.wholeFrames frames (m + piece.1.length) :=
      frameCode.wholeFrames_mono frames (Nat.le_add_right m _)
    refine List.pairwise_cons.mpr ⟨fun c hc => ?_, htail⟩
    rcases List.mem_cons.mp hc with rfl | hc
    · exact hstep
    · exact hstep.trans ((List.pairwise_cons.mp htail).1 c hc)

/-- The frames still incomplete after the first `k` pieces are never more than the pieces
still to come. -/
def NoBacklog (frames : List Frame) (pieces : List Piece) : Prop :=
  ∀ k ≤ pieces.length, frames.length ≤
    frameCode.wholeFrames frames (pieceBytes (pieces.take k)).length + (pieces.length - k)

lemma noBacklog_iff (frames : List Frame) (pieces : List Piece) :
    NoBacklog frames pieces ↔ frames.length ≤ serve 0 (arrivals frames 0 pieces) := by
  have hmono : (0 :: arrivals frames 0 pieces).Pairwise (· ≤ ·) := by
    simpa using pairwise_arrivals frames 0 pieces
  rw [le_serve_iff hmono]
  simp only [getElem_arrivals, length_arrivals, Nat.zero_add]
  constructor
  · intro h
    refine ⟨by simpa [pieceBytes] using h 0 (Nat.zero_le _), fun k hk => h (k + 1) hk⟩
  · rintro ⟨hzero, hsucc⟩ k hk
    cases k with
    | zero => simpa [pieceBytes] using hzero
    | succ k => exact hsucc k hk

/-- A delivery event before the close: a piece, or a timeout. -/
def RecvAnswer.ofEvent : Option Piece → RecvAnswer
  | some piece => .received piece
  | none => .wouldBlock

/-- The messages returned before the first call that returns false. -/
def messagesBeforeFalse (outs : List (Bool × ParsedMessage)) : List (Option Frame) :=
  (outs.takeWhile (·.1)).map (·.2.toFrame)

/-- The run lemma: `readMessage` delivers one frame per piece at most. -/
lemma messagesBeforeFalse_of_synced {frames : List Frame} (events : List (Option Piece)) :
    ∀ (results : List ParsedMessage) {p : MessageParser} {m j : ℕ},
      Synced frames m j p →
      (frameCode.encodeAll frames).take m ++ pieceBytes events.reduceOption =
        frameCode.encodeAll frames →
      frames.length < j + results.length →
      ∃ outs, readMessages (results.map (true, ·)) p
          (events.map RecvAnswer.ofEvent ++ [.closed]) = .ok outs ∧
        messagesBeforeFalse outs = ((frames.drop j).take
          (serve j (arrivals frames m events.reduceOption) - j)).map some := by
  induction events with
  | nil =>
    intro results p m j hsync _ hlen
    have hj := hsync.returned_le.trans (frameCode.wholeFrames_le_length frames m)
    cases results with
    | nil => simp only [List.length_nil] at hlen; omega
    | cons result results =>
      refine ⟨[(false, result)], ?_, ?_⟩
      · rw [List.map_cons, List.map_nil, List.nil_append, readMessages_ended (Or.inl rfl),
          readMessages_nil]
        rfl
      · simp [messagesBeforeFalse, List.reduceOption_nil, arrivals, serve]
  | cons event events ih =>
    intro results p m j hsync hstream hlen
    have hj := hsync.returned_le.trans (frameCode.wholeFrames_le_length frames m)
    cases results with
    | nil => simp only [List.length_nil] at hlen; omega
    | cons result results =>
      rw [List.map_cons, List.map_cons, List.cons_append]
      cases event with
      | none =>
        rw [RecvAnswer.ofEvent, readMessages_timeout hsync.noTimeout, if_pos rfl]
        rw [List.reduceOption_cons_of_none] at hstream ⊢
        exact ih (result :: results) hsync hstream hlen
      | some piece =>
        rw [List.reduceOption_cons_of_some] at hstream ⊢
        have hprefix : (frameCode.encodeAll frames).take m ++
            (piece.1 ++ pieceBytes events.reduceOption) <+: frameCode.encodeAll frames :=
          ⟨[], by rw [List.append_nil]; exact hstream⟩
        have hnext := hsync.receive _ _ hprefix
        have hrest : (frameCode.encodeAll frames).take (m + piece.1.length) ++
            pieceBytes events.reduceOption = frameCode.encodeAll frames :=
          (hsync.take_receive _ _ hprefix).trans hstream
        rw [RecvAnswer.ofEvent, arrivals, serve]
        rcases hnext.attempt result with
          ⟨hlt, hjlt, p', result', hparse, hframe, hsync'⟩ | ⟨heq, hparse⟩
        · obtain ⟨outs, hrun, houts⟩ := ih results hsync' hrest
            (by simp only [List.length_cons] at hlen; omega)
          refine ⟨(true, result') :: outs, ?_, ?_⟩
          · rw [readMessages_received hsync.noTimeout hparse, hrun]
            rfl
          · have htail : messagesBeforeFalse ((true, result') :: outs) =
                result'.toFrame :: messagesBeforeFalse outs := by
              simp [messagesBeforeFalse]
            rw [if_pos hlt, htail, hframe, houts, take_serve_succ hjlt, List.map_cons]
        · obtain ⟨outs, hrun, houts⟩ := ih (result :: results) hnext hrest hlen
          refine ⟨outs, ?_, ?_⟩
          · rw [readMessages_incomplete hsync.noTimeout hparse]
            exact hrun
          · rw [if_neg (by omega), houts]

/-- With `wait_timeout` set throughout, the calls up to the first that returns false return
every frame of the stream, once and in order. -/
def ReturnsEveryFrame (frames : List Frame) (events : List (Option Piece))
    (results : List ParsedMessage) : Prop :=
  ∃ outs, readMessages (results.map (true, ·)) MessageParser.new
      (events.map RecvAnswer.ofEvent ++ [.closed]) = .ok outs ∧
    messagesBeforeFalse outs = frames.map some

/-- **Every frame is returned before the close is reported exactly when no backlog forms.**
The stream arrives as pieces and timeouts and is then closed; there are calls enough for every
frame and one more. -/
theorem returnsEveryFrame_iff_noBacklog (frames : List Frame) (events : List (Option Piece))
    (results : List ParsedMessage)
    (hstream : pieceBytes events.reduceOption = frameCode.encodeAll frames)
    (hresults : frames.length < results.length) :
    ReturnsEveryFrame frames events results ↔ NoBacklog frames events.reduceOption := by
  obtain ⟨outs, hrun, houts⟩ := messagesBeforeFalse_of_synced events results
    (Synced.new frames) (by simpa using hstream) (by omega)
  rw [List.drop_zero, Nat.sub_zero] at houts
  rw [noBacklog_iff, ← List.take_eq_self_iff]
  constructor
  · rintro ⟨outs', hrun', hall⟩
    have hsame : outs' = outs := by
      rw [hrun] at hrun'
      exact (Except.ok.inj hrun').symm
    rw [hsame, houts] at hall
    exact List.map_injective_iff.mpr (Option.some_injective Frame) hall
  · intro htake
    exact ⟨outs, hrun, by rw [houts, htake]⟩

/-- A request split over two pieces with a timeout between them: the first piece completes
nothing, so no backlog forms. -/
theorem returnsEveryFrame_iff_noBacklog_split :
    ReturnsEveryFrame [.authRequest ⟨[0, 1, 2, 3, 4, 5, 6, 7, 8, 9, 10, 11, 12, 13, 14, 15], rfl⟩]
        [some ⟨[1, 0, 1, 2], by decide⟩, none,
          some ⟨[3, 4, 5, 6, 7, 8, 9, 10, 11, 12, 13, 14, 15], by decide⟩]
        [blankMessage, blankMessage] ↔
      NoBacklog [.authRequest ⟨[0, 1, 2, 3, 4, 5, 6, 7, 8, 9, 10, 11, 12, 13, 14, 15], rfl⟩]
        [⟨[1, 0, 1, 2], by decide⟩,
          ⟨[3, 4, 5, 6, 7, 8, 9, 10, 11, 12, 13, 14, 15], by decide⟩] :=
  returnsEveryFrame_iff_noBacklog _ _ _ (by decide) (by decide)

/-- Two empty data packets in one piece, then the close: the second is never returned. -/
theorem not_returnsEveryFrame_two_in_one_piece :
    ¬ ∀ (frames : List Frame) (events : List (Option Piece)) (results : List ParsedMessage),
      pieceBytes events.reduceOption = frameCode.encodeAll frames →
      frames.length < results.length → ReturnsEveryFrame frames events results := by
  intro hall
  obtain ⟨outs, hrun, houts⟩ := hall
    [.dataPkt 1 ⟨[], by decide⟩, .dataPkt 2 ⟨[], by decide⟩]
    [some ⟨[3, 1, 0, 0, 0, 0, 0, 0, 0, 0, 0, 0, 0, 3, 2, 0, 0, 0, 0, 0, 0, 0, 0, 0, 0, 0],
      by decide⟩] (List.replicate 3 blankMessage) (by decide) (by decide)
  obtain ⟨outs', hrun', houts'⟩ := messagesBeforeFalse_of_synced
    [some ⟨[3, 1, 0, 0, 0, 0, 0, 0, 0, 0, 0, 0, 0, 3, 2, 0, 0, 0, 0, 0, 0, 0, 0, 0, 0, 0],
      by decide⟩] (List.replicate 3 blankMessage)
    (Synced.new [.dataPkt 1 ⟨[], by decide⟩, .dataPkt 2 ⟨[], by decide⟩])
    (by decide) (by decide)
  rw [hrun] at hrun'
  cases hrun'
  rw [houts] at houts'
  exact absurd (congrArg List.length houts') (by decide)

end ClientServer.Netlib
