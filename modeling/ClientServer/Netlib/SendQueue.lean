import ClientServer.Library.Pipe
import ClientServer.Library.Runs
import ClientServer.Mync.Epoll
import ClientServer.Netlib.Serialization

/-!
# `netlib/epoll.cpp`: the queue of packets to send

`ClientLightEpoll` and `ClientMultithEpoll` have the same three functions: `queue_add` puts a
buffer at the end of `queue_`, `queue_send` takes the buffers from its front and passes each to
`send`, and `send` makes one `::send` call and prints a text where that takes less than the whole
buffer.  `SendQueue` is this part of both.

Only one thread at a time is in one of the queue functions: `ClientLightEpoll` is made for one
thread, and in `ClientMultithEpoll` the functions hold `mtx_queue_`.  So a turn of the loop in
`queue_send` is one step; the event loop, which replaces the socket, comes in between the turns.
-/

namespace ClientServer.Netlib

open Mync (Fd)

/-- A buffer that has left the queue, and what the socket has accepted of it. -/
structure Departed where
  buffer : Bytes
  accepted : Bytes
  deriving DecidableEq

/-- The queue of an object that the threads `ι` use. -/
structure SendQueue (ι : Type*) where
  queue : List Bytes
  socket : Fd
  /-- The thread that is in `queue_send`. -/
  sending : Option ι
  departed : List Departed
  /-- The bytes added, and those accepted by the socket. -/
  pipe : Pipe UInt8

namespace SendQueue

variable {ι : Type*}

/-- What happens to the queue. -/
inductive Action (ι : Type*)
  | queueAdd (i : ι) (buffer : Bytes)
  /-- `queue_send` is called. -/
  | queueSend (i : ι)
  /-- A turn of its loop, with the answer to `::send`. -/
  | turn (i : ι) (answer : SendAnswer)
  /-- It returns. -/
  | sent (i : ι)
  /-- The event loop, `start_handle` or `stop` assigns `socket_`. -/
  | setSocket (fd : Fd)
  deriving DecidableEq

/-- A new object. -/
def new : SendQueue ι := ⟨[], -1, none, [], .empty⟩

/-- What `::send(socket_, ..)` takes of a buffer that is large enough; it fails without a
socket. -/
def taken (s : SendQueue ι) (answer : SendAnswer) : ℕ :=
  if s.socket = -1 then 0 else answer.count

/-- The element `el` is removed from the queue and passed to `send`. -/
def send (s : SendQueue ι) (el : Bytes) (rest : List Bytes) (answer : SendAnswer) :
    SendQueue ι :=
  { s with
    queue := rest
    departed := s.departed ++ [⟨el, el.take (s.taken answer)⟩]
    pipe := s.pipe.deliver (el.take (s.taken answer)) }

/-- One action, where the thread can take it. -/
def step [DecidableEq ι] (s : SendQueue ι) : Action ι → Option (SendQueue ι)
  | .queueAdd _ buffer =>
    if s.sending = none then
      some { s with queue := s.queue ++ [buffer], pipe := s.pipe.feed buffer }
    else none
  | .queueSend i => if s.sending = none then some { s with sending := some i } else none
  | .turn i answer =>
    match s.queue with
    | [] => none
    | el :: rest => if s.sending = some i then some (s.send el rest answer) else none
  | .sent i =>
    if s.sending = some i ∧ s.queue = [] then some { s with sending := none } else none
  | .setSocket fd => some { s with socket := fd }

/-- Nothing is dropped and nothing reordered: the socket has accepted a prefix of what was added,
and of every buffer that has left the queue all its bytes. -/
def KeepsBytes (s : SendQueue ι) : Prop :=
  s.pipe.InOrder ∧ ∀ d ∈ s.departed, d.accepted = d.buffer

instance (s : SendQueue ι) : Decidable s.KeepsBytes := inferInstanceAs (Decidable (_ ∧ _))

/-- The `::send` of a turn takes the whole buffer. -/
def TakesWhole (s : SendQueue ι) : Action ι → Prop
  | .turn _ answer => ∀ el ∈ s.queue.head?, el.length ≤ s.taken answer
  | _ => True

/-! ## Runs -/

/-- What is queued is what is missing at the other end. -/
structure Faithful (s : SendQueue ι) : Prop where
  put_eq : s.pipe.put = s.pipe.out ++ s.queue.flatten
  whole : ∀ d ∈ s.departed, d.accepted = d.buffer

lemma faithful_new : (new : SendQueue ι).Faithful := ⟨rfl, by simp [new]⟩

lemma Faithful.keepsBytes {s : SendQueue ι} (h : s.Faithful) : s.KeepsBytes := by
  refine ⟨?_, h.whole⟩
  rw [Pipe.InOrder, h.put_eq]
  exact List.prefix_append _ _

/-- A buffer that is taken whole moves from the queue to the other end. -/
lemma Faithful.send {s : SendQueue ι} (h : s.Faithful) {el : Bytes} {rest : List Bytes}
    {answer : SendAnswer} (hqueue : s.queue = el :: rest) (hwhole : el.length ≤ s.taken answer) :
    (s.send el rest answer).Faithful := by
  have htake : el.take (s.taken answer) = el := List.take_of_length_le hwhole
  constructor
  · have hput := h.put_eq
    rw [hqueue, List.flatten_cons] at hput
    simp only [SendQueue.send, htake, Pipe.deliver_put, Pipe.deliver_out, List.append_assoc, hput]
  · intro d hd
    rcases List.mem_append.mp hd with hd | hd
    · exact h.whole d hd
    · obtain rfl := List.mem_singleton.mp hd
      exact htake

variable [DecidableEq ι]

lemma turn_cases {s s' : SendQueue ι} {i : ι} {answer : SendAnswer}
    (h : s.step (.turn i answer) = some s') :
    ∃ el rest, s.queue = el :: rest ∧ s' = s.send el rest answer := by
  simp only [step] at h
  split at h
  · cases h
  · next el rest hqueue =>
    split_ifs at h
    exact ⟨el, rest, hqueue, (Option.some.inj h).symm⟩

lemma preserves_faithful :
    Preserves (step (ι := ι)) TakesWhole Faithful := by
  intro s act s' hs hwhole h
  cases act with
  | turn i answer =>
    obtain ⟨el, rest, hqueue, rfl⟩ := turn_cases h
    exact hs.send hqueue (hwhole el (by rw [hqueue]; rfl))
  | queueAdd i buffer =>
    simp only [step] at h
    split_ifs at h
    cases h
    refine ⟨?_, hs.whole⟩
    simp only [Pipe.feed_put, Pipe.feed_out, hs.put_eq, List.flatten_append,
      List.flatten_singleton, List.append_assoc]
  | queueSend i =>
    simp only [step] at h
    split_ifs at h
    cases h
    exact ⟨hs.put_eq, hs.whole⟩
  | sent i =>
    simp only [step] at h
    split_ifs at h
    cases h
    exact ⟨hs.put_eq, hs.whole⟩
  | setSocket fd =>
    cases h
    exact ⟨hs.put_eq, hs.whole⟩

/-- A turn that takes less leaves a buffer behind of which bytes are missing. -/
lemma takesWhole_of_keepsBytes {s s' : SendQueue ι} {act : Action ι}
    (h : s.step act = some s') (hkeeps : s'.KeepsBytes) : s.TakesWhole act := by
  cases act with
  | turn i answer =>
    obtain ⟨el, rest, hqueue, rfl⟩ := turn_cases h
    intro el' hel'
    obtain rfl : el = el' := by
      rw [hqueue] at hel'
      exact Option.some.inj hel'
    have hwhole : el.take (s.taken answer) = el :=
      hkeeps.2 ⟨el, el.take (s.taken answer)⟩ (by simp [SendQueue.send])
    exact List.take_eq_self_iff el |>.mp hwhole
  | queueAdd i buffer => trivial
  | queueSend i => trivial
  | sent i => trivial
  | setSocket fd => trivial

/-- **When the queue keeps its bytes**: in every interleaving, exactly if every `::send` takes
its whole buffer.  `ClientLightEpoll` is the case of one thread. -/
theorem keepsBytes_throughout_iff (acts : List (Action ι)) :
    Throughout step KeepsBytes new acts ↔ Along step TakesWhole new acts :=
  preserves_faithful.throughout_iff (fun _ hs => hs.keepsBytes)
    (fun _ _ _ _ h hkeeps => takesWhole_of_keepsBytes h hkeeps) faithful_new

/-- A buffer that is sent while there is no socket is gone, for either class. -/
theorem not_keepsBytes_no_socket :
    ¬ ∀ acts : List (Action Unit), Throughout step KeepsBytes new acts := by
  intro hall
  exact absurd (hall [.queueAdd () [1], .queueSend (), .turn () (.accept 1)]) (by decide)

end SendQueue

end ClientServer.Netlib
