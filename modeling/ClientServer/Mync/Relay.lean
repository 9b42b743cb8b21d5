import ClientServer.Library.Runs
import ClientServer.Mync.Epoll

/-!
# The client as a two-way relay

The `Epoll` object of the client program copies standard input to its socket and what the peer
sends to standard output.  Two streams come in, each a finite sequence of bytes followed by its
end; their bytes arrive when they like, are reported by `epoll_wait` when they have arrived, and
are read in pieces of any size.

The loop of `exec` runs until `stdin_closed` or `socket_closed` is set, so the end of one stream
ends the relay of both.  `EndsDrained` is the condition under which that loses nothing: when the
loop is told to end, no byte of either stream is outstanding.
-/

namespace ClientServer.Mync

/-! ## The streams -/

/-- A stream that comes in and has not been read to its end. -/
structure Source where
  /-- The bytes that have arrived and not been read. -/
  arrived : Bytes
  /-- The bytes still to arrive. -/
  coming : Bytes
  /-- The end of the stream has arrived. -/
  closed : Bool

namespace Source

/-- The stream at its start. -/
def new (bytes : Bytes) : Source := ⟨[], bytes, false⟩

/-- The bytes that have not been read. -/
def left (s : Source) : Bytes := s.arrived ++ s.coming

/-- The next `n` bytes arrive. -/
def arrive (s : Source) (n : ℕ) : Source :=
  { s with arrived := s.arrived ++ s.coming.take n, coming := s.coming.drop n }

/-- What a read may answer: a piece of what has arrived, or the end of the stream. -/
def Allows (s : Source) : ReadAnswer → Prop
  | .data chunk => chunk.1 <+: s.arrived
  | .eof => s.arrived = [] ∧ s.coming = [] ∧ s.closed
  | .again => True
  | .error => True

instance (s : Source) : DecidablePred s.Allows := fun
  | .data chunk => inferInstanceAs (Decidable (chunk.1 <+: s.arrived))
  | .eof => inferInstanceAs (Decidable (_ ∧ _ ∧ _))
  | .again => inferInstanceAs (Decidable True)
  | .error => inferInstanceAs (Decidable True)

/-- The stream after a read. -/
def read (s : Source) : ReadAnswer → Source
  | .data chunk => { s with arrived := s.arrived.drop chunk.1.length }
  | _ => s

/-- The bits `epoll_wait` reports for the stream: a hang-up only after its end has arrived,
`EPOLLIN` whenever bytes have. -/
def Shows (s : Source) (evs : Events) : Prop :=
  (s.arrived ≠ [] → evs.epollin) ∧ (evs.closing → s.closed)

instance (s : Source) (evs : Events) : Decidable (s.Shows evs) :=
  inferInstanceAs (Decidable (_ ∧ _))

@[simp] lemma left_arrive (s : Source) (n : ℕ) : (s.arrive n).left = s.left := by
  show (s.arrived ++ s.coming.take n) ++ s.coming.drop n = s.arrived ++ s.coming
  rw [List.append_assoc, List.take_append_drop]

/-- The bytes a read returns are the first of those left. -/
lemma bytes_append_left_read {s : Source} {ans : ReadAnswer} (h : s.Allows ans) :
    ans.bytes ++ (s.read ans).left = s.left := by
  cases ans with
  | data chunk =>
    obtain ⟨rest, hrest⟩ := h
    show chunk.1 ++ (s.arrived.drop chunk.1.length ++ s.coming) = s.arrived ++ s.coming
    rw [← hrest, List.drop_left, List.append_assoc]
  | eof | again | error => rfl

/-- The same where the stream may not be read at all. -/
lemma append_left_ite {s : Source} {ans : ReadAnswer} {p : Prop} [Decidable p]
    (h : p → s.Allows ans) :
    (if p then ans.bytes else []) ++ (if p then s.read ans else s).left = s.left := by
  by_cases hp : p
  · rw [if_pos hp, if_pos hp]
    exact bytes_append_left_read (h hp)
  · rw [if_neg hp, if_neg hp]
    rfl

end Source

/-! ## The steps -/

/-- The client program. -/
structure Relay where
  epoll : Epoll
  stdin : Source
  peer : Source
  /-- What `send` has put on `sockfd`. -/
  sent : Bytes
  /-- What has been written to standard output. -/
  stdout : Bytes
  /-- Standard input has not been closed by this process. -/
  stdinOpen : Bool
  /-- The reports of the last `epoll_wait` that are still to be handled. -/
  batch : List Report
  /-- `exec` has returned. -/
  returned : Bool

/-- What can happen next. -/
inductive RelayAct
  | stdinArrives (n : ℕ)
  | stdinCloses
  | peerArrives (n : ℕ)
  | peerCloses
  | wait (batch : List Report)
  | handle (answers : Answers)
  /-- The loop condition of `exec` fails. -/
  | leave

/-- What a sequence of calls sends on sockets. -/
def sentBy (calls : List Call) : Bytes :=
  calls.flatMap fun
    | .send _ bytes => bytes
    | _ => []

/-- What a sequence of calls writes to standard output. -/
def writtenBy (calls : List Call) : Bytes :=
  calls.flatMap fun
    | .writeStdout bytes => bytes
    | _ => []

lemma sentBy_eq_nil {calls : List Call} (h : ∀ fd bytes, .send fd bytes ∉ calls) :
    sentBy calls = [] := by
  unfold sentBy
  rw [List.flatMap_eq_nil_iff]
  intro c hc
  split
  · exact absurd hc (h _ _)
  · rfl

lemma writtenBy_eq_nil {calls : List Call} (h : ∀ bytes, .writeStdout bytes ∉ calls) :
    writtenBy calls = [] := by
  unfold writtenBy
  rw [List.flatMap_eq_nil_iff]
  intro c hc
  split
  · exact absurd hc (h _)
  · rfl

namespace Relay

/-- The client with its socket connected, before `exec`. -/
def new (sock epfd wakeup timer : Fd) (input output : Bytes) : Relay where
  epoll := Epoll.new sock false false epfd wakeup timer
  stdin := Source.new input
  peer := Source.new output
  sent := []
  stdout := []
  stdinOpen := true
  batch := []
  returned := false

/-- A report that `epoll_wait` may return now. -/
def Reports (w : Relay) (r : Report) : Prop :=
  w.epoll.Watches r.fd ∧ (r.fd = stdinFileno → w.stdinOpen ∧ w.stdin.Shows r.events) ∧
    (r.fd = w.epoll.sockfd → w.peer.Shows r.events)

instance (w : Relay) : DecidablePred w.Reports :=
  fun _ => inferInstanceAs (Decidable (_ ∧ _ ∧ _))

/-- The loop condition of `exec`. -/
def Loops (w : Relay) : Prop := ¬ w.epoll.stdinClosed ∧ ¬ w.epoll.socketClosed

instance (w : Relay) : Decidable w.Loops := inferInstanceAs (Decidable (_ ∧ _))

/-- A batch that `epoll_wait` may return now. -/
def Returns (w : Relay) (batch : List Report) : Prop :=
  w.batch = [] ∧ ¬ w.returned ∧ w.Loops ∧ batch.length ≤ 4 ∧ (batch.map (·.fd)).Nodup ∧
    ∀ r ∈ batch, w.Reports r

instance (w : Relay) (batch : List Report) : Decidable (w.Returns batch) :=
  inferInstanceAs (Decidable (_ ∧ _ ∧ _ ∧ _ ∧ _ ∧ _))

/-- The answer of the read is one that the stream read allows. -/
def Allows (w : Relay) (r : Report) (a : Answers) : Prop :=
  (w.epoll.dispatch r = .stdin → w.stdin.Allows a.read) ∧
    (w.epoll.dispatch r = .socketData → w.peer.Allows a.read)

instance (w : Relay) (r : Report) (a : Answers) : Decidable (w.Allows r a) :=
  inferInstanceAs (Decidable (_ ∧ _))

/-- The client after report `r` was handled with this result. -/
def absorb (w : Relay) (r : Report) (a : Answers) (rest : List Report) (e : Epoll)
    (calls : List Call) : Relay :=
  { w with
    epoll := e
    stdin := if w.epoll.dispatch r = .stdin then w.stdin.read a.read else w.stdin
    peer := if w.epoll.dispatch r = .socketData then w.peer.read a.read else w.peer
    sent := w.sent ++ sentBy calls
    stdout := w.stdout ++ writtenBy calls
    stdinOpen := w.stdinOpen && decide (stdinFileno ∉ closes calls)
    batch := rest }

/-- One step; none where it cannot be taken.  A thrown exception ends the process. -/
def next (w : Relay) : RelayAct → Option Relay
  | .stdinArrives n => some { w with stdin := w.stdin.arrive n }
  | .stdinCloses =>
    if w.stdin.coming = [] then some { w with stdin := { w.stdin with closed := true } } else none
  | .peerArrives n => some { w with peer := w.peer.arrive n }
  | .peerCloses =>
    if w.peer.coming = [] then some { w with peer := { w.peer with closed := true } } else none
  | .wait batch => if w.Returns batch then some { w with batch := batch } else none
  | .handle a =>
    match w.batch with
    | [] => none
    | r :: rest =>
      if w.Allows r a then
        match w.epoll.handleReport r a with
        | .ok (e, calls) => some (w.absorb r a rest e calls)
        | .error _ => none
      else none
  | .leave =>
    if w.batch = [] ∧ ¬ w.returned ∧ ¬ w.Loops then some { w with returned := true } else none

end Relay

/-! ## One report -/

namespace Epoll

variable {e e' : Epoll} {r : Report} {a : Answers} {calls : List Call}

/-- The report ends the loop: a hang-up on the socket, or a read that reports the end of a
stream. -/
def Ending (e : Epoll) (r : Report) (a : Answers) : Prop :=
  e.dispatch r = .socketClosed ∨
    (e.dispatch r = .stdin ∨ e.dispatch r = .socketData) ∧ a.read.isEof

instance (e : Epoll) (r : Report) (a : Answers) : Decidable (e.Ending r a) :=
  inferInstanceAs (Decidable (_ ∨ _))

/-- What handling a report relays and whether it ends the loop, for an object that does not
listen. -/
structure Relays (e : Epoll) (r : Report) (a : Answers) (e' : Epoll) (calls : List Call) :
    Prop where
  listens : e'.isListen = e.isListen
  sent : sentBy calls = if e.dispatch r = .stdin then a.read.bytes else []
  written : writtenBy calls = if e.dispatch r = .socketData then a.read.bytes else []
  ends : e'.stdinClosed ∨ e'.socketClosed → e.stdinClosed ∨ e.socketClosed ∨ e.Ending r a

lemma relays_handleStdin (hlisten : e.isListen = false) (hd : e.dispatch r = .stdin)
    (h : e.handleStdin a = .ok (e', calls)) : Relays e r a e' calls := by
  unfold handleStdin at h
  cases hread : a.read with
  | data chunk =>
    rw [hread] at h
    simp only [hlisten, Bool.false_eq_true, if_false] at h
    split_ifs at h
    cases h
    exact ⟨rfl, by simp [sentBy, ReadAnswer.bytes, hd, hread], by simp [writtenBy, hd],
      fun hflag => hflag.imp_right Or.inl⟩
  | eof =>
    rw [hread] at h
    cases h
    exact ⟨rfl, by simp [sentBy, ReadAnswer.bytes, hd, hread], by simp [writtenBy, hd],
      fun _ => Or.inr (Or.inr (Or.inr ⟨Or.inl hd, by rw [hread]; rfl⟩))⟩
  | again | error =>
    rw [hread] at h
    cases h

lemma relays_handleSocketData (hd : e.dispatch r = .socketData)
    (h : e.handleSocketData a = .ok (e', calls)) : Relays e r a e' calls := by
  unfold handleSocketData at h
  cases hread : a.read with
  | data chunk =>
    rw [hread] at h
    dsimp only at h
    split_ifs at h
    cases h
    exact ⟨rfl, by simp [sentBy, hd], by simp [writtenBy, ReadAnswer.bytes, hd, hread],
      fun hflag => hflag.imp_right Or.inl⟩
  | eof =>
    rw [hread] at h
    cases h
    exact ⟨rfl, by simp [sentBy, hd], by simp [writtenBy, ReadAnswer.bytes, hd, hread],
      fun _ => Or.inr (Or.inr (Or.inr ⟨Or.inr hd, by rw [hread]; rfl⟩))⟩
  | again | error =>
    rw [hread] at h
    cases h

/-- A report handled elsewhere than in these two functions relays nothing. -/
lemma relays_of_silent (hstdin : e.dispatch r ≠ .stdin) (hsocket : e.dispatch r ≠ .socketData)
    (hlistens : e'.isListen = e.isListen) (hsent : sentBy calls = [])
    (hwritten : writtenBy calls = [])
    (hends : e'.stdinClosed ∨ e'.socketClosed → e.stdinClosed ∨ e.socketClosed ∨ e.Ending r a) :
    Relays e r a e' calls :=
  ⟨hlistens, by rw [hsent, if_neg hstdin], by rw [hwritten, if_neg hsocket], hends⟩

lemma relays_handleTimer (hd : e.dispatch r = .timer) :
    Relays e r a (e.handleTimer a).1 (e.handleTimer a).2 := by
  have hsame (hflag : e.stdinClosed ∨ e.socketClosed) :
      e.stdinClosed ∨ e.socketClosed ∨ e.Ending r a := hflag.imp_right Or.inl
  unfold handleTimer
  split_ifs
  · exact relays_of_silent (by simp [hd]) (by simp [hd]) rfl (sentBy_eq_nil (by simp))
      (writtenBy_eq_nil (by simp)) hsame
  · exact relays_of_silent (by simp [hd]) (by simp [hd]) rfl rfl rfl hsame

/-- The server's side writes nothing to standard output. -/
lemma relays_handleClientData (hd : e.dispatch r = .clientData)
    (h : e.handleClientData r.fd a = .ok (e', calls)) : Relays e r a e' calls := by
  have hsame (hflag : e.stdinClosed ∨ e.socketClosed) :
      e.stdinClosed ∨ e.socketClosed ∨ e.Ending r a := hflag.imp_right Or.inl
  unfold handleClientData at h
  cases hread : a.read with
  | data chunk =>
    rw [hread] at h
    by_cases hwritten : a.written = true
    · simp only [hwritten, if_true] at h
      cases h
      exact relays_of_silent (by simp [hd]) (by simp [hd]) rfl rfl
        (by simp [writtenBy, serverWriteStdout]) hsame
    · simp only [hwritten] at h
      cases h
  | eof | again | error =>
    rw [hread] at h
    cases h
    exact relays_of_silent (by simp [hd]) (by simp [hd]) rfl rfl rfl hsame

/-- The step lemma of the relay. -/
lemma relays_of_ok (hlisten : e.isListen = false) (h : e.handleReport r a = .ok (e', calls)) :
    Relays e r a e' calls := by
  have hsame (hflag : e.stdinClosed ∨ e.socketClosed) :
      e.stdinClosed ∨ e.socketClosed ∨ e.Ending r a := hflag.imp_right Or.inl
  unfold handleReport at h
  cases hd : e.dispatch r with
  | stdin =>
    rw [hd] at h
    exact relays_handleStdin hlisten hd h
  | socketData =>
    simp only [hd, hlisten, Bool.false_eq_true, if_false] at h
    exact relays_handleSocketData hd h
  | socketClosed =>
    rw [hd] at h
    cases h
    exact relays_of_silent (by simp [hd]) (by simp [hd]) rfl rfl rfl
      fun _ => Or.inr (Or.inr (Or.inl hd))
  | removeClient =>
    rw [hd] at h
    cases h
    exact relays_of_silent (by simp [hd]) (by simp [hd]) rfl rfl rfl hsame
  | wakeup =>
    rw [hd] at h
    cases h
    exact relays_of_silent (by simp [hd]) (by simp [hd]) rfl (sentBy_eq_nil (by simp))
      (writtenBy_eq_nil (by simp)) hsame
  | timer =>
    rw [hd] at h
    have hrelays := relays_handleTimer (a := a) hd
    rw [Except.ok.inj h] at hrelays
    exact hrelays
  | clientData =>
    rw [hd] at h
    exact relays_handleClientData hd h
  | ignored =>
    rw [hd] at h
    cases h
    exact relays_of_silent (by simp [hd]) (by simp [hd]) rfl rfl rfl hsame

end Epoll

/-! ## Every run -/

namespace Relay

/-- When `exec` has returned, all of standard input has been sent on the socket and everything
the peer sent has been written to standard output, in order. -/
def Relayed (input output : Bytes) (w : Relay) : Prop :=
  w.returned → w.sent = input ∧ w.stdout = output

instance (input output : Bytes) : DecidablePred (Relayed input output) :=
  fun _ => inferInstanceAs (Decidable (_ → _ ∧ _))

/-- A report that ends the loop is handled only when no byte of either stream is outstanding. -/
def EndsDrained (w : Relay) : RelayAct → Prop
  | .handle a => ∀ r ∈ w.batch.head?, w.epoll.Ending r a → w.stdin.left = [] ∧ w.peer.left = []
  | _ => True

instance (w : Relay) : DecidablePred w.EndsDrained := fun
  | .handle a => inferInstanceAs (Decidable (∀ r ∈ w.batch.head?, w.epoll.Ending r a → _))
  | .stdinArrives _ | .stdinCloses | .peerArrives _ | .peerCloses | .wait _ | .leave =>
    inferInstanceAs (Decidable True)

/-- No byte is lost or reordered before it is read, and once the loop is told to end there is
none left to read. -/
structure Conserved (input output : Bytes) (w : Relay) : Prop where
  listens : w.epoll.isListen = false
  sent : w.sent ++ w.stdin.left = input
  stdout : w.stdout ++ w.peer.left = output
  drained : ¬ w.Loops → w.stdin.left = [] ∧ w.peer.left = []
  returned : w.returned → w.batch = [] ∧ ¬ w.Loops

variable {input output : Bytes}

lemma conserved_new (sock epfd wakeup timer : Fd) :
    Conserved input output (new sock epfd wakeup timer input output) where
  listens := rfl
  sent := rfl
  stdout := rfl
  drained := by
    intro hloops
    exact absurd ⟨by simp [new, Epoll.new], by simp [new, Epoll.new]⟩ hloops
  returned := by
    intro hreturned
    cases hreturned

lemma Conserved.relayed {w : Relay} (hw : Conserved input output w) : Relayed input output w := by
  intro hreturned
  obtain ⟨hstdin, hpeer⟩ := hw.drained (hw.returned hreturned).2
  have hsent := hw.sent
  have hstdout := hw.stdout
  rw [hstdin, List.append_nil] at hsent
  rw [hpeer, List.append_nil] at hstdout
  exact ⟨hsent, hstdout⟩

lemma next_handle {w w' : Relay} {a : Answers} (h : w.next (.handle a) = some w') :
    ∃ r rest e calls, w.batch = r :: rest ∧ w.Allows r a ∧
      w.epoll.handleReport r a = .ok (e, calls) ∧ w' = w.absorb r a rest e calls := by
  cases hbatch : w.batch with
  | nil => simp [next, hbatch] at h
  | cons r rest =>
    simp only [next, hbatch] at h
    split_ifs at h with hallows
    cases hok : w.epoll.handleReport r a with
    | error t => simp [hok] at h
    | ok result =>
      rw [hok] at h
      cases h
      exact ⟨r, rest, result.1, result.2, rfl, hallows, hok, rfl⟩

lemma not_loops_iff (w : Relay) : ¬ w.Loops ↔ w.epoll.stdinClosed ∨ w.epoll.socketClosed := by
  unfold Loops
  rw [not_and_or, not_not, not_not]

/-- Handling a report moves bytes from the front of a stream to what was relayed of it, and the
loop ends with none outstanding. -/
lemma Conserved.handle {w w' : Relay} (hw : Conserved input output w) {a : Answers}
    (hends : w.EndsDrained (.handle a)) (hstep : w.next (.handle a) = some w') :
    Conserved input output w' := by
  obtain ⟨r, rest, e, calls, hbatch, ⟨hallowStdin, hallowPeer⟩, hok, rfl⟩ := next_handle hstep
  have hrelays := Epoll.relays_of_ok hw.listens hok
  have hstdin := Source.append_left_ite hallowStdin
  have hpeer := Source.append_left_ite hallowPeer
  refine ⟨hrelays.listens.trans hw.listens, ?_, ?_, fun hloops => ?_, fun hreturned => ?_⟩
  · show (w.sent ++ sentBy calls) ++
      (if w.epoll.dispatch r = .stdin then w.stdin.read a.read else w.stdin).left = input
    rw [hrelays.sent, List.append_assoc, hstdin]
    exact hw.sent
  · show (w.stdout ++ writtenBy calls) ++
      (if w.epoll.dispatch r = .socketData then w.peer.read a.read else w.peer).left = output
    rw [hrelays.written, List.append_assoc, hpeer]
    exact hw.stdout
  · -- nothing was outstanding before, so nothing is after
    have hdrained : w.stdin.left = [] ∧ w.peer.left = [] := by
      rcases or_assoc.mpr (hrelays.ends ((not_loops_iff _).mp hloops)) with hbefore | hending
      · exact hw.drained ((not_loops_iff w).mpr hbefore)
      · exact hends r (by rw [hbatch]; rfl) hending
    rw [hdrained.1, List.append_eq_nil_iff] at hstdin
    rw [hdrained.2, List.append_eq_nil_iff] at hpeer
    exact ⟨hstdin.2, hpeer.2⟩
  · rw [(hw.returned hreturned).1] at hbatch
    cases hbatch

lemma Conserved.stdin_eq {w : Relay} (hw : Conserved input output w) {s : Source}
    (hs : s.left = w.stdin.left) : Conserved input output { w with stdin := s } := by
  refine ⟨hw.listens, ?_, hw.stdout, fun hloops => ?_, hw.returned⟩
  · show w.sent ++ s.left = input
    rw [hs]
    exact hw.sent
  · show s.left = [] ∧ w.peer.left = []
    rw [hs]
    exact hw.drained hloops

lemma Conserved.peer_eq {w : Relay} (hw : Conserved input output w) {s : Source}
    (hs : s.left = w.peer.left) : Conserved input output { w with peer := s } := by
  refine ⟨hw.listens, hw.sent, ?_, fun hloops => ?_, hw.returned⟩
  · show w.stdout ++ s.left = output
    rw [hs]
    exact hw.stdout
  · show w.stdin.left = [] ∧ s.left = []
    rw [hs]
    exact hw.drained hloops

/-- Every step keeps the bytes, where the loop ends with none outstanding. -/
lemma preserves_conserved : Preserves next EndsDrained (Conserved input output) := by
  intro w a w' hw hends hstep
  cases a with
  | stdinArrives n =>
    cases hstep
    exact hw.stdin_eq (Source.left_arrive w.stdin n)
  | stdinCloses =>
    simp only [next] at hstep
    split_ifs at hstep
    cases hstep
    exact hw.stdin_eq rfl
  | peerArrives n =>
    cases hstep
    exact hw.peer_eq (Source.left_arrive w.peer n)
  | peerCloses =>
    simp only [next] at hstep
    split_ifs at hstep
    cases hstep
    exact hw.peer_eq rfl
  | wait batch =>
    simp only [next] at hstep
    split_ifs at hstep with hreturns
    cases hstep
    exact ⟨hw.listens, hw.sent, hw.stdout, hw.drained,
      fun hreturned => absurd hreturned hreturns.2.1⟩
  | handle answers => exact hw.handle hends hstep
  | leave =>
    simp only [next] at hstep
    split_ifs at hstep with hleave
    cases hstep
    exact ⟨hw.listens, hw.sent, hw.stdout, hw.drained, fun _ => ⟨hleave.1, hleave.2.2⟩⟩

/-- **The relay is lossless along every run whose loop ends with nothing outstanding.**  The
streams are any two, arriving in any order and in any pieces, with any reports of them. -/
theorem relayed_of_endsDrained (sock epfd wakeup timer : Fd) (input output : Bytes)
    (as : List RelayAct) (h : Along next EndsDrained (new sock epfd wakeup timer input output) as) :
    Throughout next (Relayed input output) (new sock epfd wakeup timer input output) as :=
  preserves_conserved.throughout (fun _ hw => hw.relayed) (conserved_new sock epfd wakeup timer) h

/-- Both streams have one byte, and the peer closes after standard input has ended. -/
theorem relayed_of_endsDrained_one_byte_each :
    Throughout next (Relayed [104] [105]) (new 3 4 5 6 [104] [105])
      [.stdinArrives 1, .peerArrives 1, .stdinCloses,
        .wait [⟨0, ⟨true, false, false, false⟩⟩, ⟨3, ⟨true, false, false, false⟩⟩],
        .handle ⟨.data ⟨[104], by decide⟩, true, true, true, 0⟩,
        .handle ⟨.data ⟨[105], by decide⟩, true, true, true, 0⟩,
        .wait [⟨0, ⟨true, false, false, false⟩⟩], .handle ⟨.eof, true, true, true, 0⟩, .leave] :=
  relayed_of_endsDrained 3 4 5 6 [104] [105] _ (by decide)

/-- Standard input is empty; its end stops the client before the peer's byte is written. -/
theorem not_relayed_stdin_eof_first :
    ¬ Throughout next (Relayed [] [105]) (new 3 4 5 6 [] [105])
      [.stdinCloses, .wait [⟨0, ⟨true, false, false, false⟩⟩],
        .handle ⟨.eof, true, true, true, 0⟩, .leave] := by
  decide

end Relay

end ClientServer.Mync
