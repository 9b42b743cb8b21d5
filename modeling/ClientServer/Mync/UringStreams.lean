import ClientServer.Mync.UringServer

/-!
# What the server over io_uring relays

A client's bytes are at any time written, read and waiting for the loop, or not read yet.  The
loop takes completions in the order in which they come, and there is one read in flight for a
client, so the three follow each other in the client's stream.  The same holds of standard input,
of which a client is to be sent what comes after its adoption; what else it is sent are the messages
of the timer.
-/

namespace ClientServer.Mync

open Std (ExtTreeMap)

/-! ## What was read -/

/-- A read of the client on `fd`. -/
def Request.Reads (fd : Fd) (q : Request) : Prop := q.type = .clientRead ∧ q.fd = fd

instance (fd : Fd) (q : Request) : Decidable (q.Reads fd) :=
  inferInstanceAs (Decidable (_ ∧ _))

/-- What the completed requests of a kind have read. -/
def readBy (p : Request → Bool) (completed : List (Ticket Request × Completion)) : Bytes :=
  completed.flatMap fun d => if p d.1.request then d.2.chunk else []

variable {p : Request → Bool} {completed : List (Ticket Request × Completion)}

lemma readBy_append (p : Request → Bool) (completed : List (Ticket Request × Completion))
    (req : Ticket Request) (c : Completion) :
    readBy p (completed ++ [(req, c)]) =
      readBy p completed ++ if p req.request then c.chunk else [] := by
  unfold readBy
  rw [List.flatMap_append, List.flatMap_singleton]

lemma readBy_cons (p : Request → Bool) (completed : List (Ticket Request × Completion))
    (req : Ticket Request) (c : Completion) :
    readBy p ((req, c) :: completed) =
      (if p req.request then c.chunk else []) ++ readBy p completed := rfl

lemma readBy_eq_nil (h : ∀ d ∈ completed, ¬ p d.1.request) : readBy p completed = [] := by
  unfold readBy
  rw [List.flatMap_eq_nil_iff]
  exact fun d hd => if_neg (h d hd)

/-- What a read brings is what it answers. -/
lemma Completion.bytes_answer {c : Completion} (hfits : c.Fits) : c.answer.bytes = c.chunk := by
  by_cases hdata : 0 < c.res
  · obtain ⟨chunk, hanswer, hchunk⟩ := answer_of_pos hfits hdata
    rw [hanswer]
    exact hchunk
  · have hnil := chunk_eq_nil (not_lt.1 hdata)
    unfold answer
    rw [dif_neg (by rw [hnil]; exact fun h => absurd h.1 (lt_irrefl 0)), hnil]
    split_ifs <;> rfl

lemma Completion.length_chunk {c : Completion} (hfits : c.Fits) : c.chunk.length = c.res.toNat := by
  by_cases hdata : 0 < c.res
  · exact (hfits hdata).1
  · rw [chunk_eq_nil (not_lt.1 hdata), Int.toNat_of_nonpos (not_lt.1 hdata)]
    rfl

namespace UringServer

open UringBidirectionalRelay

variable {w w' : UringServer} {req : Ticket Request} {c : Completion} {stream : Bytes}
  {rest : List (Ticket Request × Completion)} {fd : Fd} {calls : List Call}

/-! ## What is to hold -/

/-- What was read from standard input and the loop has not got to. -/
def pendingStdin (w : UringServer) : Bytes := readBy (fun q => q.type = .stdinRead) w.completed

/-- The same of a client. -/
def pending (w : UringServer) (fd : Fd) : Bytes := readBy (fun q => q.Reads fd) w.completed

/-- What a client sends is written to standard output in order and counted, up to what the loop
has not got to; each client is sent what was read from standard input since it was adopted, and
besides only messages of the timer; and when the loop gets to the end of a client's stream, all of
the stream was written. -/
structure Relayed (input : Bytes) (w : UringServer) : Prop where
  received : ∀ fd ∈ w.relay.clients,
    w.written fd ++ w.pending fd ++ (w.peers fd).left = w.streams fd
  counted : ∀ fd st, w.relay.clients[fd]? = some st →
    st.totalBytes = UInt64.ofNat (w.written fd).length
  broadcast : ∀ fd ∈ w.relay.clients, w.heardBefore fd ++ ofStdin (w.sent fd) = w.heard
  stdin : w.heard ++ w.pendingStdin ++ w.stdin.left = input
  ended : w.relay.Looping → ∀ req c rest fd, w.completed = (req, c) :: rest →
    req.request.Reads fd → c.res = 0 → w.written fd = w.streams fd

namespace Completes

lemma stdin_left (h : w.Completes req c stream w') (hallows : w.Allows req c) :
    (if req.request.type = .stdinRead then c.chunk else []) ++ w'.stdin.left = w.stdin.left := by
  cases h with
  | stdin htype =>
    obtain ⟨hfits, hallowed⟩ := hallows.1 htype
    rw [if_pos htype, ← Completion.bytes_answer hfits]
    exact Source.bytes_append_left_read hallowed
  | client htype =>
    rw [if_neg (by rw [htype]; exact OpType.noConfusion)]
    rfl
  | adopts hadopts =>
    rw [if_neg (by rw [hadopts.1]; exact OpType.noConfusion)]
    rfl
  | other hstdin =>
    rw [if_neg hstdin]
    rfl

/-- A connection that is not new. -/
lemma kept (h : w.Completes req c stream w') (hallows : w.Allows req c)
    (hold : ¬ (Adopts req c ∧ fd = c.res)) :
    w'.written fd = w.written fd ∧ w'.streams fd = w.streams fd ∧
      (if req.request.Reads fd then c.chunk else []) ++ (w'.peers fd).left =
        (w.peers fd).left := by
  cases h with
  | stdin htype =>
    rw [if_neg fun hreads => OpType.noConfusion (htype.symm.trans hreads.1)]
    exact ⟨rfl, rfl, rfl⟩
  | client htype =>
    refine ⟨rfl, rfl, ?_⟩
    show _ ++ (Function.update w.peers req.request.fd _ fd).left = _
    by_cases hfd : req.request.fd = fd
    · obtain ⟨hfits, hallowed⟩ := hallows.2.1 htype
      subst hfd
      rw [if_pos ⟨htype, rfl⟩, ← Completion.bytes_answer hfits, Function.update_self]
      exact Source.bytes_append_left_read hallowed
    · rw [if_neg fun hreads => hfd hreads.2, Function.update_of_ne (Ne.symm hfd)]
      rfl
  | adopts hadopts =>
    have hne : fd ≠ c.res := fun hfd => hold ⟨hadopts, hfd⟩
    rw [if_neg fun hreads => OpType.noConfusion (hadopts.1.symm.trans hreads.1)]
    exact ⟨Function.update_of_ne hne _ _, Function.update_of_ne hne _ _,
      congrArg Source.left (Function.update_of_ne hne _ _)⟩
  | other _ hclient =>
    rw [if_neg fun hreads => hclient hreads.1]
    exact ⟨rfl, rfl, rfl⟩

/-- A connection that is new. -/
lemma fresh (h : w.Completes req c stream w') (hadopts : Adopts req c) :
    w'.written c.res = [] ∧ (w'.peers c.res).left = w'.streams c.res := by
  cases h with
  | stdin htype | client htype => exact OpType.noConfusion (htype.symm.trans hadopts.1)
  | adopts =>
    simp only [Function.update_self]
    exact ⟨trivial, rfl⟩
  | other _ _ hnot => exact absurd hadopts hnot

lemma heard (h : w.Completes req c stream w') :
    w'.heard = w.heard ∧ w'.heardBefore = w.heardBefore ∧ w'.sent = w.sent := by
  cases h <;> exact ⟨rfl, rfl, rfl⟩

lemma pendingStdin (h : w.Completes req c stream w') :
    w'.pendingStdin = w.pendingStdin ++ if req.request.type = .stdinRead then c.chunk else [] := by
  unfold UringServer.pendingStdin
  rw [h.completed, readBy_append]
  simp only [decide_eq_true_eq]

lemma pending (h : w.Completes req c stream w') (fd : Fd) :
    w'.pending fd = w.pending fd ++ if req.request.Reads fd then c.chunk else [] := by
  unfold UringServer.pending
  rw [h.completed, readBy_append]
  simp only [decide_eq_true_eq]

end Completes

section Absorb

variable {m : ExtTreeMap Fd Stats} {closed : Bool}
  {result : UringBidirectionalRelay × List Call}

lemma pendingStdin_cons (hnext : w.completed = (req, c) :: rest)
    (result : UringBidirectionalRelay × List Call) :
    w.pendingStdin = (if req.request.type = .stdinRead then c.chunk else []) ++
      (w.absorb req c rest result).pendingStdin := by
  unfold pendingStdin
  rw [hnext, readBy_cons]
  simp only [decide_eq_true_eq]
  rfl

lemma pending_cons (hnext : w.completed = (req, c) :: rest)
    (result : UringBidirectionalRelay × List Call) (fd : Fd) :
    w.pending fd = (if req.request.Reads fd then c.chunk else []) ++
      (w.absorb req c rest result).pending fd := by
  unfold pending
  rw [hnext, readBy_cons]
  simp only [decide_eq_true_eq]
  rfl

lemma written_absorb (h : w.relay.Served req c m closed result)
    (rest : List (Ticket Request × Completion)) (fd : Fd) :
    (w.absorb req c rest result).written fd =
      w.written fd ++ if req.request.Reads fd then c.chunk else [] := by
  show (if req.request.type = .clientRead then
    Function.update w.written req.request.fd (w.written req.request.fd ++ writtenBy result.2)
      else w.written) fd = _
  by_cases htype : req.request.type = .clientRead
  · rw [if_pos htype, h.serves.writtenBy_eq htype]
    by_cases hfd : req.request.fd = fd
    · subst hfd
      rw [Function.update_self, if_pos ⟨htype, rfl⟩]
    · rw [Function.update_of_ne (Ne.symm hfd), if_neg fun hreads => hfd hreads.2, List.append_nil]
  · rw [if_neg htype, if_neg fun hreads => htype hreads.1, List.append_nil]

lemma heard_absorb (w : UringServer) (req : Ticket Request) (c : Completion)
    (rest : List (Ticket Request × Completion))
    (result : UringBidirectionalRelay × List Call) :
    (w.absorb req c rest result).heard =
      w.heard ++ if req.request.type = .stdinRead then c.chunk else [] := by
  show (if req.request.type = .stdinRead then w.heard ++ c.chunk else w.heard) = _
  split_ifs
  · rfl
  · rw [List.append_nil]

/-- A client is sent what the loop hears. -/
lemma sent_absorb (h : w.relay.Served req c m closed result)
    (rest : List (Ticket Request × Completion)) (hfd : fd ∈ w.relay.clients)
    (hold : ¬ (Adopts req c ∧ fd = c.res)) :
    (w.absorb req c rest result).heardBefore fd = w.heardBefore fd ∧
      ofStdin ((w.absorb req c rest result).sent fd) =
        ofStdin (w.sent fd) ++ if req.request.type = .stdinRead then c.chunk else [] := by
  show (if Adopts req c then _ else w.heardBefore) fd = _ ∧
    ofStdin ((if Adopts req c then _ else fun x => w.sent x ++ sentOn x result.2) fd) = _
  by_cases hadopts : Adopts req c
  · have hne : fd ≠ c.res := fun heq => hold ⟨hadopts, heq⟩
    have hother : req.request.type ≠ .stdinRead := by
      rw [hadopts.1]
      exact OpType.noConfusion
    rw [if_pos hadopts, if_pos hadopts, Function.update_of_ne hne, Function.update_of_ne hne,
      if_neg hother, List.append_nil]
    exact ⟨rfl, rfl⟩
  · rw [if_neg hadopts, if_neg hadopts, ← h.serves.ofStdin_sentOn hfd]
    exact ⟨rfl, ofStdin_append _ _⟩

/-- A new client was sent nothing yet. -/
lemma sent_absorb_of_adopts (hadopts : Adopts req c) (w : UringServer)
    (rest : List (Ticket Request × Completion))
    (result : UringBidirectionalRelay × List Call) :
    (w.absorb req c rest result).heardBefore c.res = w.heard ∧
      (w.absorb req c rest result).sent c.res = [] := by
  show (if Adopts req c then _ else w.heardBefore) c.res = _ ∧
    (if Adopts req c then _ else fun x => w.sent x ++ sentOn x result.2) c.res = _
  rw [if_pos hadopts, if_pos hadopts, Function.update_self, Function.update_self]
  exact ⟨rfl, rfl⟩

end Absorb

/-- The bytes come in one after another, and nothing is left of a stream whose end was read. -/
structure Carries (input : Bytes) (w : UringServer) : Prop where
  received : ∀ fd ∈ w.relay.clients,
    w.written fd ++ w.pending fd ++ (w.peers fd).left = w.streams fd
  counted : ∀ fd st, w.relay.clients[fd]? = some st →
    st.totalBytes = UInt64.ofNat (w.written fd).length
  broadcast : ∀ fd ∈ w.relay.clients, w.heardBefore fd ++ ofStdin (w.sent fd) = w.heard
  stdin : w.heard ++ w.pendingStdin ++ w.stdin.left = input
  fits : ∀ d ∈ w.completed, d.1.request.type = .clientRead → d.2.Fits
  fresh : w.relay.Looping → ∀ fd ∈ w.accepted,
    w.written fd = [] ∧ (w.peers fd).left = w.streams fd
  last : w.relay.Looping → ∀ d ∈ w.completed, ∀ fd, d.1.request.Reads fd → d.2.res = 0 →
    (w.peers fd).left = []

/-- Only clients are read from. -/
lemma Tracked.mem_clients (h : w.Tracked) (hloop : w.relay.Looping)
    (hreq : req ∈ w.relay.ring.inFlight) (hreads : req.request.Reads fd) :
    fd ∈ w.relay.clients ∧ req.request = clientRequest fd := by
  have hmem := (h.serving.keeps hloop.1).mem_expected hreq
  obtain ⟨htype, rfl⟩ := hreads
  rcases mem_expected hmem with hq | hq | ⟨-, hq⟩ | ⟨fd, hfd, hq⟩
  · exact absurd htype (by rw [hq]; exact OpType.noConfusion)
  · exact absurd htype (by rw [hq]; exact OpType.noConfusion)
  · exact absurd htype (by rw [hq]; exact OpType.noConfusion)
  · rw [hq]
    exact ⟨hfd, rfl⟩

namespace Carries

variable {input : Bytes}

lemma relayed (h : w.Carries input) (htracked : w.Tracked) : w.Relayed input := by
  refine ⟨h.received, h.counted, h.broadcast, h.stdin, ?_⟩
  intro hloop req c rest fd hnext hreads hres
  obtain ⟨hreq, hothers⟩ := htracked.head hnext hloop
  obtain ⟨hclient, hrequest⟩ := htracked.mem_clients hloop hreq hreads
  have hleft := h.last hloop (req, c) (by rw [hnext]; exact List.mem_cons_self) fd hreads hres
  have hpending : w.pending fd = [] := by
    unfold pending
    rw [hnext, readBy_cons, Completion.chunk_eq_nil hres.le, ite_self, List.nil_append]
    refine readBy_eq_nil fun d hd hd' => hothers d hd ?_
    have hflight := htracked.inFlight d (by rw [hnext]; exact List.mem_cons_of_mem _ hd)
    rw [hrequest]
    exact (htracked.mem_clients hloop hflight (of_decide_eq_true hd')).2
  have hreceived := h.received fd hclient
  rw [hpending, hleft, List.append_nil, List.append_nil] at hreceived
  exact hreceived

/-- Bytes that arrive are as many less to come. -/
lemma peer (h : w.Carries input) {s : Source} (hleft : s.left = (w.peers fd).left) :
    Carries input { w with peers := Function.update w.peers fd s } := by
  have hsame (x : Fd) : (Function.update w.peers fd s x).left = (w.peers x).left := by
    by_cases hx : x = fd
    · rw [hx, Function.update_self]
      exact hleft
    · rw [Function.update_of_ne hx]
  refine ⟨fun x hx => ?_, h.counted, h.broadcast, h.stdin, h.fits, fun hloop x hx => ?_,
    fun hloop d hd x hreads hres => (hsame x).trans (h.last hloop d hd x hreads hres)⟩
  · rw [← h.received x hx, ← hsame x]
    rfl
  · rw [← (h.fresh hloop x hx).2, ← (h.fresh hloop x hx).1]
    exact ⟨rfl, hsame x⟩

lemma completes (h : w.Carries input) (htracked : w.Tracked) (hlive : w.destroyed = false)
    (hreq : req ∈ w.relay.ring.inFlight) (hallows : w.Allows req c)
    (hcompletes : w.Completes req c stream w') : w'.Carries input := by
  have hclient {fd : Fd} (hfd : fd ∈ w.relay.clients) : ¬ (Adopts req c ∧ fd = c.res) := by
    rintro ⟨hadopts, rfl⟩
    exact hallows.2.2 hadopts (htracked.clients hlive _ hfd)
  obtain ⟨hheard, hbefore, hsent⟩ := hcompletes.heard
  have hmem {fd : Fd} : fd ∈ w'.relay.clients ↔ fd ∈ w.relay.clients := by
    rw [hcompletes.relay]
  constructor
  case received =>
    intro fd hfd
    obtain ⟨hwritten, hstreams, hleft⟩ := hcompletes.kept hallows (hclient (hmem.1 hfd))
    rw [hwritten, hstreams, hcompletes.pending, ← h.received fd (hmem.1 hfd), ← hleft]
    simp only [List.append_assoc]
  case counted =>
    intro fd st hst
    rw [hcompletes.relay] at hst
    have hfd : fd ∈ w.relay.clients := by
      rw [ExtTreeMap.mem_iff_isSome_getElem?, hst]
      rfl
    rw [(hcompletes.kept hallows (hclient hfd)).1]
    exact h.counted fd st hst
  case broadcast =>
    intro fd hfd
    rw [hheard, hbefore, hsent]
    exact h.broadcast fd (hmem.1 hfd)
  case stdin =>
    rw [hheard, hcompletes.pendingStdin, ← h.stdin, ← hcompletes.stdin_left hallows]
    simp only [List.append_assoc]
  case fits =>
    intro d hd htype
    rw [hcompletes.completed, List.mem_append, List.mem_singleton] at hd
    rcases hd with hd | rfl
    · exact h.fits d hd htype
    · exact (hallows.2.1 htype).1
  case fresh =>
    intro hloop fd hfd
    rw [hcompletes.relay] at hloop
    rcases (Tracked.mem_accepted_of_completes hcompletes).1 hfd with hfd | ⟨hadopts, rfl⟩
    · obtain ⟨hopen, hnot⟩ := htracked.accepted hlive fd hfd
      have hold : ¬ (Adopts req c ∧ fd = c.res) := by
        rintro ⟨hadopts, rfl⟩
        exact hallows.2.2 hadopts hopen
      obtain ⟨hwritten, hstreams, hleft⟩ := hcompletes.kept hallows hold
      -- it is not read from before it is a client
      rw [if_neg fun hreads => hnot (htracked.mem_clients hloop hreq hreads).1,
        List.nil_append] at hleft
      rw [hwritten, hstreams, hleft]
      exact h.fresh hloop fd hfd
    · exact hcompletes.fresh hadopts
  case last =>
    intro hloop d hd fd hreads hres
    rw [hcompletes.relay] at hloop
    rw [hcompletes.completed, List.mem_append, List.mem_singleton] at hd
    have hflight : d.1 ∈ w.relay.ring.inFlight := by
      rcases hd with hd | rfl
      · exact htracked.inFlight d hd
      · exact hreq
    have hfd := (htracked.mem_clients hloop hflight hreads).1
    obtain ⟨-, -, hleft⟩ := hcompletes.kept hallows (hclient hfd)
    have hnil : (w.peers fd).left = [] := by
      rcases hd with hd | rfl
      · exact h.last hloop d hd fd hreads hres
      · have hallowed := (hallows.2.1 hreads.1).2
        rw [Completion.answer_of_eq_zero hres, hreads.2] at hallowed
        exact UringClient.left_of_allows_eof hallowed
    rw [hnil] at hleft
    exact (List.append_eq_nil_iff.1 hleft).2

lemma handled (h : w.Carries input) (htracked : w.Tracked)
    (hnext : w.completed = (req, c) :: rest) (hloop : w.relay.Looping) :
    (w.absorb req c rest (w.relay.onCompletion req c)).Carries input := by
  obtain ⟨m, closed, hserved⟩ := htracked.served hnext hloop
  have hserves := hserved.serves
  have hlive := htracked.running hloop
  set result := w.relay.onCompletion req c with hresult
  set w' := w.absorb req c rest result with hw'
  have hreq := (htracked.head hnext hloop).1
  have hmem {fd : Fd} (hfd : fd ∈ w'.relay.clients) :
      Adopts req c ∧ fd = c.res ∨ fd ∈ w.relay.clients ∧ fd ∉ closes result.2 := by
    have hfd : fd ∈ result.1.clients := hfd
    rw [hserved.clients] at hfd
    exact hserves.mem_iff.1 hfd
  have hnew (hadopts : Adopts req c) : c.res ∈ w.accepted :=
    (Tracked.mem_accepted_cons hnext result).2 (.inl ⟨hadopts, rfl⟩)
  have hold {fd : Fd} (hfd : fd ∈ w.relay.clients) : ¬ (Adopts req c ∧ fd = c.res) := by
    rintro ⟨hadopts, rfl⟩
    exact (htracked.accepted hlive _ (hnew hadopts)).2 hfd
  have hwritten (fd : Fd) := written_absorb hserved rest fd
  -- a connection that is adopted was not read from yet
  have hunread (hadopts : Adopts req c) : w'.written c.res = [] ∧ w'.pending c.res = [] ∧
      (w.peers c.res).left = w.streams c.res := by
    obtain ⟨hnone, hleft⟩ := h.fresh hloop _ (hnew hadopts)
    have hnot := (htracked.accepted hlive _ (hnew hadopts)).2
    refine ⟨?_, readBy_eq_nil fun d hd hreads => hnot ?_, hleft⟩
    · rw [hw', hwritten, hnone, if_neg fun hreads =>
        OpType.noConfusion (hadopts.1.symm.trans hreads.1)]
      rfl
    · have hflight := htracked.inFlight d (by rw [hnext]; exact List.mem_cons_of_mem _ hd)
      exact (htracked.mem_clients hloop hflight (of_decide_eq_true hreads)).1
  constructor
  case received =>
    intro fd hfd
    rcases hmem hfd with ⟨hadopts, rfl⟩ | ⟨hclient, -⟩
    · obtain ⟨hnone, hpending, hleft⟩ := hunread hadopts
      rw [hnone, hpending]
      exact hleft
    · have hreceived := h.received fd hclient
      rw [pending_cons hnext result] at hreceived
      rw [hw', hwritten, List.append_assoc (w.written fd)]
      exact hreceived
  case counted =>
    intro fd st hst
    have hst : result.1.clients[fd]? = some st := hst
    rw [hserved.clients] at hst
    have hfd : fd ∈ w'.relay.clients := by
      show fd ∈ result.1.clients
      rw [hserved.clients, ExtTreeMap.mem_iff_isSome_getElem?, hst]
      rfl
    rcases hserves.totalBytes_eq hst with ⟨hnot, hzero⟩ | ⟨st', hst', htotal⟩
    · obtain ⟨hadopts, rfl⟩ := (hmem hfd).resolve_right fun hclient => hnot hclient.1
      rw [hzero, (hunread hadopts).1]
      rfl
    · rw [htotal, h.counted fd st' hst', hw', hwritten, List.length_append, UInt64.ofNat_add]
      congr 2
      by_cases hreads : req.request.Reads fd
      · have hfits := h.fits (req, c) (by rw [hnext]; exact List.mem_cons_self) hreads.1
        rw [if_pos hreads, if_pos (htracked.mem_clients hloop hreq hreads).2,
          Completion.length_chunk hfits]
      · rw [if_neg hreads, if_neg fun hq => hreads (by rw [hq]; exact ⟨rfl, rfl⟩)]
        rfl
  case broadcast =>
    intro fd hfd
    rcases hmem hfd with ⟨hadopts, rfl⟩ | ⟨hclient, -⟩
    · obtain ⟨hbefore, hsent⟩ := sent_absorb_of_adopts hadopts w rest result
      rw [hw', hbefore, hsent, heard_absorb, if_neg (by rw [hadopts.1]; exact OpType.noConfusion)]
      rfl
    · obtain ⟨hbefore, hsent⟩ := sent_absorb hserved rest hclient (hold hclient)
      rw [hw', hbefore, hsent, heard_absorb, ← List.append_assoc, h.broadcast fd hclient]
  case stdin =>
    have hstdin := h.stdin
    rw [pendingStdin_cons hnext result] at hstdin
    rw [hw', heard_absorb, List.append_assoc w.heard]
    exact hstdin
  case fits =>
    intro d hd
    exact h.fits d (by rw [hnext]; exact List.mem_cons_of_mem _ hd)
  case fresh =>
    intro _ fd hfd
    have hacc := (Tracked.mem_accepted_cons hnext result).2 (.inr hfd)
    obtain ⟨hnone, hleft⟩ := h.fresh hloop fd hacc
    have hnot := (htracked.accepted hlive fd hacc).2
    refine ⟨?_, hleft⟩
    rw [hw', hwritten, hnone, if_neg fun hreads => hnot (htracked.mem_clients hloop hreq hreads).1]
    rfl
  case last =>
    intro _ d hd
    exact h.last hloop d (by rw [hnext]; exact List.mem_cons_of_mem _ hd)

lemma steps (h : w.Carries input) (htracked : w.Tracked) (hsteps : w.Steps w' calls) :
    w'.Carries input := by
  cases hsteps with
  | stdin hleft =>
    refine ⟨h.received, h.counted, h.broadcast, ?_, h.fits, h.fresh, h.last⟩
    rw [← h.stdin, ← hleft]
    rfl
  | peer hleft => exact h.peer hleft
  | interrupted => exact h
  | completed hlive hreq _ hallows hcompletes =>
    exact h.completes htracked hlive hreq hallows hcompletes
  | handled hnext hloop => exact h.handled htracked hnext hloop
  | destroyed hends =>
    exact ⟨h.received, h.counted, h.broadcast, h.stdin, h.fits,
      fun hloop => absurd hloop hends, fun hloop => absurd hloop hends⟩

end Carries

lemma carries_new (sock created : Fd) (armed : Bool) (input : Bytes) :
    (new sock created armed input).Carries input := by
  have hnone := (clients_new sock created armed input).1
  have hclient {p : Prop} {fd : Fd} (hfd : fd ∈ (new sock created armed input).relay.clients) :
      p := by
    rw [hnone] at hfd
    exact absurd hfd ExtTreeMap.not_mem_empty
  refine ⟨fun fd hfd => hclient hfd, fun fd st hst => ?_, fun fd hfd => hclient hfd, rfl,
    fun _ hd => absurd hd List.not_mem_nil, fun _ _ hfd => absurd hfd List.not_mem_nil,
    fun _ _ hd => absurd hd List.not_mem_nil⟩
  exact hclient (ExtTreeMap.mem_iff_isSome_getElem?.2 (by rw [hst]; rfl))

/-- Every step keeps what is known of the completions and of the streams. -/
lemma preserves_carries (input : Bytes) :
    Preserves next (fun _ _ => True) fun w => w.Tracked ∧ w.Carries input := by
  rintro w a w' ⟨htracked, hcarries⟩ - hstep
  obtain ⟨calls, hsteps⟩ := steps_of_next hstep
  exact ⟨htracked.steps hsteps, hcarries.steps htracked hsteps⟩

/-- **The server over io_uring drops nothing.**  Any clients that come and go and reuse each
other's descriptors, any streams in any pieces, and completions in any order, seen by the loop as
late as it likes: what a client sends is written to standard output in order and counted, each
client is sent all that was read from standard input since it was adopted, with nothing but messages
of the timer between, and a client that closes is removed when the last byte it sent was written. -/
theorem relayed_throughout (sock created : Fd) (armed : Bool) (input : Bytes)
    (acts : List UringServerAct) :
    Throughout next (Relayed input) (new sock created armed input) acts :=
  (preserves_carries input).throughout (fun _ h => h.2.relayed h.1)
    ⟨Tracked.new sock created armed input, carries_new sock created armed input⟩
    (along_of_forall (fun _ _ => trivial) _ _)

end UringServer

end ClientServer.Mync
