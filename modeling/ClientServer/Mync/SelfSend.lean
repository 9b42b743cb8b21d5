import ClientServer.Library.Runs
import Mathlib.Data.Int.Order.Basic

/-!
# `mync/epollserver.cpp`: the sender thread of `client_mode_epoll`

The thread reads the clock in every iteration and writes as long as it has written less, in the
current interval of at least 100 ms, than the target rate allows for the time that has passed
since the interval began.  Every iteration is one step, with the clock reading and the answer of
`write` as its inputs; `sleep_for` only lets time pass.
-/

namespace ClientServer.Mync

/-- What `write` answers. -/
inductive SelfSend.WriteResult
  | sent (n : ℕ)
  /-- `EAGAIN` or `EWOULDBLOCK`. -/
  | again
  | failed
  deriving DecidableEq

/-- The variables of the sender thread, and what it did so far. -/
structure SelfSend where
  /-- `interval_start`, in nanoseconds. -/
  intervalStart : ℤ
  bytesSentInInterval : UInt64
  /-- Whether the loop was left. -/
  broken : Bool
  /-- The first reading of the clock. -/
  start : ℤ
  /-- The last reading of the clock. -/
  last : ℤ
  /-- `elapsed_ms` of the last iteration that wrote in the interval, `0` for the one that
  started it. -/
  elapsed : ℕ
  /-- The bytes written in the interval. -/
  sentInInterval : ℕ
  /-- The bytes written altogether. -/
  sent : ℕ
  deriving DecidableEq

namespace SelfSend

/-- `TARGET_BPS`, in bytes per second. -/
def targetBps : UInt64 := 125000000

/-- `BUFFER_SIZE`. -/
def bufferSize : UInt64 := 64 * 1024

/-- `INTERVAL`, in milliseconds. -/
def interval : ℕ := 100

/-- `bytes_to_send`. -/
def bytesToSend : UInt64 := min bufferSize (targetBps * UInt64.ofNat interval / 1000)

/-- `elapsed_ms`. -/
def elapsedMs (s : SelfSend) (now : ℤ) : ℤ := (now - s.intervalStart).tdiv 1000000

/-- `bytes_allowed_in_interval`. -/
def bytesAllowedInInterval (elapsedMs : ℤ) : UInt64 := targetBps * UInt64.ofInt elapsedMs / 1000

/-- The thread before its loop. -/
def new (start : ℤ) : SelfSend := ⟨start, 0, false, start, start, 0, 0, 0⟩

/-- A new interval. -/
def reset (s : SelfSend) (now : ℤ) : SelfSend :=
  { s with intervalStart := now, bytesSentInInterval := 0, elapsed := 0, sentInInterval := 0 }

/-- The end of an iteration that calls `write`. -/
def afterWrite (s : SelfSend) (elapsed : ℕ) : WriteResult → SelfSend
  | .sent n =>
    if 0 < n then
      { s with
        bytesSentInInterval := s.bytesSentInInterval + UInt64.ofNat n
        elapsed := elapsed
        sentInInterval := s.sentInInterval + n
        sent := s.sent + n }
    else s
  | .again => s
  | .failed => { s with broken := true }

/-- One iteration of the loop. -/
def iterate (s : SelfSend) (now : ℤ) (r : WriteResult) : SelfSend :=
  let s' := { s with last := now }
  let elapsed := s.elapsedMs now
  if interval ≤ elapsed then (s'.reset now).afterWrite 0 r
  else if bytesAllowedInInterval elapsed ≤ s.bytesSentInInterval then s'
  else s'.afterWrite elapsed.toNat r

/-- `write` takes no more than it was given. -/
def WriteResult.Possible : WriteResult → Prop
  | .sent n => n ≤ bytesToSend.toNat
  | _ => True

instance : DecidablePred WriteResult.Possible
  | .sent n => inferInstanceAs (Decidable (n ≤ bytesToSend.toNat))
  | .again => isTrue trivial
  | .failed => isTrue trivial

/-- One step: the clock does not go back. -/
def step (s : SelfSend) (a : ℤ × WriteResult) : Option SelfSend :=
  if s.broken = false ∧ s.last ≤ a.1 ∧ a.2.Possible then some (s.iterate a.1 a.2) else none

/-- The milliseconds since the start. -/
def ms (s : SelfSend) : ℕ := ((s.last - s.start) / 1000000).toNat

/-- The counter has what was written in the interval, and neither this nor what was written
altogether is above the target rate by more than a buffer for each interval. -/
structure AtRate (s : SelfSend) : Prop where
  bytesSentInInterval_eq : s.bytesSentInInterval.toNat = s.sentInInterval
  sentInInterval_le : s.bytesSentInInterval.toNat ≤
    targetBps.toNat * s.elapsed / 1000 + bufferSize.toNat
  sent_le : s.sent ≤ targetBps.toNat * s.ms / 1000 + bufferSize.toNat * (s.ms / interval + 1)

/-! ## One iteration -/

/-- What the bounds follow from: the earlier intervals were `n`, each of at least 100 ms, and the
times that passed in them before their last writes add up to `ms` milliseconds. -/
structure Inv (s : SelfSend) : Prop where
  bytesSentInInterval_eq : s.bytesSentInInterval.toNat = s.sentInInterval
  elapsed_lt : s.elapsed < interval
  elapsed_le : s.intervalStart + 1000000 * s.elapsed ≤ s.last
  sentInInterval_le : s.sentInInterval ≤ 125000 * s.elapsed + 65536
  earlier : ∃ ms n : ℕ, s.sent ≤ 125000 * ms + 65536 * n + s.sentInInterval ∧
    s.start + 1000000 * ms ≤ s.intervalStart ∧ s.start + 100000000 * n ≤ s.intervalStart

lemma targetBps_toNat : targetBps.toNat = 125000000 := rfl

lemma bufferSize_toNat : bufferSize.toNat = 65536 := rfl

lemma bytesToSend_toNat : bytesToSend.toNat = 65536 := by decide

/-- Within an interval the product does not overflow. -/
lemma bytesAllowedInInterval_toNat {elapsed : ℕ} (h : elapsed < interval) :
    (bytesAllowedInInterval elapsed).toNat = targetBps.toNat * elapsed / 1000 := by
  have hlt : elapsed < 100 := h
  have hcast : UInt64.ofInt elapsed = UInt64.ofNat elapsed := by
    rw [UInt64.ofInt, Int.emod_eq_of_lt (by omega) (by omega), Int.toNat_natCast]
  rw [bytesAllowedInInterval, hcast, UInt64.toNat_div, UInt64.toNat_mul, UInt64.toNat_ofNat',
    targetBps_toNat, Nat.mod_eq_of_lt (a := elapsed) (by omega), Nat.mod_eq_of_lt (by omega)]
  rfl

variable {s : SelfSend} {now : ℤ} {r : WriteResult}

lemma elapsedMs_bounds (h : s.intervalStart ≤ now) :
    0 ≤ s.elapsedMs now ∧ s.intervalStart + 1000000 * s.elapsedMs now ≤ now := by
  rw [elapsedMs, Int.tdiv_eq_ediv_of_nonneg (by omega)]
  omega

/-- A later reading of the clock changes nothing else. -/
lemma Inv.later (hs : s.Inv) (hnow : s.last ≤ now) : ({ s with last := now } : SelfSend).Inv :=
  { hs with elapsed_le := le_trans hs.elapsed_le hnow }

/-- The interval that ends took at least 100 ms and wrote for no longer than it took. -/
lemma Inv.reset (hs : s.Inv) (helapsed : s.intervalStart + 100000000 ≤ s.last) :
    (s.reset s.last).Inv := by
  obtain ⟨ms, n, hsent, hms, hn⟩ := hs.earlier
  have helapsed_le := hs.elapsed_le
  have hinterval := hs.sentInInterval_le
  have hreset : (s.reset s.last).sent ≤ 125000 * (ms + s.elapsed) + 65536 * (n + 1) + 0 := by
    show s.sent ≤ _
    omega
  refine ⟨rfl, Nat.zero_lt_succ _, ?_, Nat.zero_le _, ms + s.elapsed, n + 1, hreset, ?_, ?_⟩
  · show s.last + 1000000 * ((0 : ℕ) : ℤ) ≤ s.last
    omega
  · show s.start + 1000000 * ((ms + s.elapsed : ℕ) : ℤ) ≤ s.last
    omega
  · show s.start + 100000000 * ((n + 1 : ℕ) : ℤ) ≤ s.last
    omega

/-- What `write` adds is allowed if less than the target was written before it. -/
lemma Inv.afterWrite (hs : s.Inv) (hr : r.Possible) {elapsed : ℕ} (hlt : elapsed < interval)
    (hle : s.intervalStart + 1000000 * elapsed ≤ s.last)
    (hallowed : s.sentInInterval ≤ 125000 * elapsed) : (s.afterWrite elapsed r).Inv := by
  cases r with
  | sent n =>
    rw [SelfSend.afterWrite]
    split
    · have hn : n ≤ 65536 := le_of_le_of_eq hr bytesToSend_toNat
      have hinterval : interval = 100 := rfl
      obtain ⟨ms, k, hsent, hms, hk⟩ := hs.earlier
      refine ⟨?_, hlt, hle, ?_, ms, k, ?_, hms, hk⟩
      · show (s.bytesSentInInterval + UInt64.ofNat n).toNat = s.sentInInterval + n
        rw [UInt64.toNat_add, UInt64.toNat_ofNat', hs.bytesSentInInterval_eq]
        omega
      · show s.sentInInterval + n ≤ 125000 * elapsed + 65536
        omega
      · show s.sent + n ≤ 125000 * ms + 65536 * k + (s.sentInInterval + n)
        omega
    · exact hs
  | again => exact hs
  | failed => exact { hs with }

lemma Inv.iterate (hs : s.Inv) (hnow : s.last ≤ now) (hr : r.Possible) :
    (s.iterate now r).Inv := by
  have hlater := hs.later hnow
  have hstart : s.intervalStart ≤ now := by
    have := hs.elapsed_le
    omega
  obtain ⟨hnonneg, hle⟩ := elapsedMs_bounds hstart
  have htoNat : ((s.elapsedMs now).toNat : ℤ) = s.elapsedMs now := Int.toNat_of_nonneg hnonneg
  simp only [SelfSend.iterate]
  split
  · next hinterval =>
    have hinterval' : (100 : ℤ) ≤ s.elapsedMs now := hinterval
    have hreset := hlater.reset (show s.intervalStart + 100000000 ≤ now by omega)
    exact hreset.afterWrite hr (Nat.zero_lt_succ _) hreset.elapsed_le (Nat.zero_le _)
  · next hinterval =>
    have hlt : (s.elapsedMs now).toNat < interval := by
      have hinterval' : ¬ (100 : ℤ) ≤ s.elapsedMs now := hinterval
      show _ < 100
      omega
    split
    · exact hlater
    · next hallowed =>
      refine hlater.afterWrite hr hlt (by rw [htoNat]; exact hle) ?_
      rw [← htoNat, UInt64.le_iff_toNat_le, bytesAllowedInInterval_toNat hlt,
        hs.bytesSentInInterval_eq, targetBps_toNat] at hallowed
      show s.sentInInterval ≤ _
      omega

lemma preserves_inv : Preserves step (fun _ _ => True) Inv := by
  intro s a s' hs _ h
  rw [step] at h
  split at h
  · next hcan =>
    cases h
    exact hs.iterate hcan.2.1 hcan.2.2
  · cases h

lemma new_inv (start : ℤ) : (new start).Inv :=
  ⟨rfl, Nat.zero_lt_succ _, by show start + 1000000 * ((0 : ℕ) : ℤ) ≤ start; omega,
    Nat.zero_le _, 0, 0, Nat.zero_le _, by show start + _ ≤ start; omega,
    by show start + _ ≤ start; omega⟩

/-- The earlier intervals and the current one lie one after the other in the time of the run. -/
lemma Inv.atRate (hs : s.Inv) : s.AtRate := by
  have hinterval := hs.sentInInterval_le
  have hlast := hs.elapsed_le
  obtain ⟨ms, n, hsent, hms, hn⟩ := hs.earlier
  refine ⟨hs.bytesSentInInterval_eq, ?_, ?_⟩
  · rw [hs.bytesSentInInterval_eq, targetBps_toNat, bufferSize_toNat]
    omega
  · have htime : ms + s.elapsed ≤ s.ms := by
      rw [SelfSend.ms]
      omega
    have hintervals : n ≤ s.ms / 100 := by
      rw [SelfSend.ms]
      omega
    rw [targetBps_toNat, bufferSize_toNat, interval]
    omega

/-! ## Runs -/

/-- **The sender keeps to its rate.**  For all readings of a clock that does not go back and all
answers of `write`, the bounds hold in every state of the run; and the product in
`bytes_allowed_in_interval` is exact for every time within an interval. -/
theorem throughout_atRate (start : ℤ) (as : List (ℤ × WriteResult)) :
    Throughout step AtRate (new start) as ∧
      ∀ elapsed : Fin interval, (bytesAllowedInInterval elapsed).toNat =
        targetBps.toNat * elapsed / 1000 := by
  refine ⟨?_, fun elapsed => bytesAllowedInInterval_toNat elapsed.2⟩
  exact preserves_inv.throughout (fun _ hs => hs.atRate) (new_inv start)
    (along_of_forall (fun _ _ => trivial) _ _)

end SelfSend

end ClientServer.Mync
